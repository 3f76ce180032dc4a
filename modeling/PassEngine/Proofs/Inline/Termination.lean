import PassEngine.Proofs.Inline.Limit

namespace PassEngine.Inline

open Dialect

variable {config : InlineConfig} {m m' : Module}

def iterate (config : InlineConfig) : (n : Nat) → Module → Except SpliceError Module
  | 0, m => return m
  | n + 1, m => do
    let (m, _) ← round config m
    iterate config n m

/-- The next round fails or inlines nothing. -/
def Settled (config : InlineConfig) (m : Module) : Prop :=
  (∃ e, round config m = .error e) ∨ ∃ m', round config m = .ok (m', 0)

/-- How much the functions of a module may still grow. -/
def slack (config : InlineConfig) (m : Module) : Nat :=
  (m.functions.map fun f => ceiling config - f.size).sum

theorem sum_slack_le {once : Prop} {fs fs' : List Function}
    (h : List.Forall₂ (Grown config once) fs fs') :
    (fs'.map fun f => ceiling config - f.size).sum + (fs'.map Function.size).sum ≤
      (fs.map fun f => ceiling config - f.size).sum + (fs.map Function.size).sum := by
  induction h with
  | nil => exact Nat.le_refl _
  | cons hf _ ih =>
    have hceiling := hf.le_ceiling
    simp only [List.map_cons, List.sum_cons]
    omega

/-- Each call inlined uses up some of what is left. -/
theorem slack_round_add_le {count : Nat} (hm : m.Framed) (h : round config m = .ok (m', count)) :
    slack config m' + count ≤ slack config m := by
  have hround := underway_round hm h
  have hslack : slack config m' + m'.size ≤ slack config m + m.size := sum_slack_le hround.grown
  have hsize := hround.size_le
  omega

theorem settled_or_inlines (config : InlineConfig) (m : Module) :
    Settled config m ∨ ∃ m' count, round config m = .ok (m', count) ∧ 0 < count := by
  cases hround : round config m with
  | error e => exact .inl (.inl ⟨e, hround⟩)
  | ok next =>
    obtain ⟨m', count⟩ := next
    rcases Nat.eq_zero_or_pos count with rfl | hcount
    · exact .inl (.inr ⟨m', hround⟩)
    · exact .inr ⟨m', count, rfl, hcount⟩

theorem exists_settled (config : InlineConfig) (hm : m.Framed) :
    ∃ k ≤ slack config m, ∃ m', iterate config k m = .ok m' ∧ Settled config m' := by
  induction hn : slack config m using Nat.strong_induction_on generalizing m with
  | h n ih =>
    rcases settled_or_inlines config m with hsettled | ⟨m₁, count, hround, hcount⟩
    · exact ⟨0, Nat.zero_le n, m, rfl, hsettled⟩
    · have hslack := slack_round_add_le hm hround
      obtain ⟨k, hk, m', hiterate, hsettled⟩ :=
        ih (slack config m₁) (by omega) (underway_round hm hround).framed rfl
      refine ⟨k + 1, by omega, m', ?_, hsettled⟩
      rw [iterate, hround]
      exact hiterate

/-- Rounds that are allowed beyond the last one that finds something make no difference. -/
theorem rounds_eq_of_settled {k n n' : Nat} (h : iterate config k m = .ok m')
    (hsettled : Settled config m') (hn : k < n) (hn' : k < n') :
    rounds config n m = rounds config n' m := by
  induction k generalizing m n n' with
  | zero =>
    cases h
    obtain ⟨n, rfl⟩ := Nat.exists_eq_succ_of_ne_zero (Nat.ne_of_gt hn)
    obtain ⟨n', rfl⟩ := Nat.exists_eq_succ_of_ne_zero (Nat.ne_of_gt hn')
    rcases hsettled with ⟨e, he⟩ | ⟨m', hm'⟩
    · rw [rounds, rounds, he]
      rfl
    · rw [rounds, rounds, hm']
      rfl
  | succ k ih =>
    obtain ⟨⟨m₁, count⟩, hround, h⟩ := bind_eq_ok_iff.1 h
    obtain ⟨n, rfl⟩ := Nat.exists_eq_succ_of_ne_zero (Nat.ne_zero_of_lt hn)
    obtain ⟨n', rfl⟩ := Nat.exists_eq_succ_of_ne_zero (Nat.ne_zero_of_lt hn')
    rw [rounds, rounds, hround]
    simp only [ok_bind]
    rw [ih h (Nat.lt_of_succ_lt_succ hn) (Nat.lt_of_succ_lt_succ hn')]

theorem choose_maxIterations (n : Nat) (graph : CallGraph) (caller : Function) (size : Nat)
    (sites : List CallSite) :
    choose { config with maxIterations := n } m graph caller size sites =
      choose config m graph caller size sites := by
  induction sites generalizing size with
  | nil => rfl
  | cons site sites ih =>
    simp only [choose, ih]
    rfl

theorem round_maxIterations (n : Nat) (m : Module) :
    round { config with maxIterations := n } m = round config m := by
  simp only [round, inlineCaller, select, choose_maxIterations]

theorem rounds_maxIterations (n k : Nat) (m : Module) :
    rounds { config with maxIterations := n } k m = rounds config k m := by
  induction k generalizing m with
  | zero => rfl
  | succ k ih => simp only [rounds, round_maxIterations, ih]

def enough (config : InlineConfig) (m : Module) : Nat := slack config m + 1

/-- From a verified module on, the rounds come to one that fails or inlines nothing, and to allow
more of them makes no difference. -/
theorem optimize_settles (config : InlineConfig) {m : Module} (hm : m.verify = .ok ()) :
    (∃ k < enough config m, ∃ m', iterate config k m = .ok m' ∧ Settled config m') ∧
    ∀ n, enough config m ≤ n → optimize { config with maxIterations := n } m =
      optimize { config with maxIterations := enough config m } m := by
  have hframed := (m.verify_eq_ok_iff.1 hm).1
  obtain ⟨k, hk, m', hiterate, hsettled⟩ := exists_settled config hframed
  have hlt : k < enough config m := Nat.lt_succ_of_le hk
  refine ⟨⟨k, hlt, m', hiterate, hsettled⟩, fun n hn => ?_⟩
  simp only [optimize, rounds_maxIterations]
  rw [rounds_eq_of_settled hiterate hsettled (hlt.trans_le hn) hlt]

/-- A function that calls one that calls one. -/
def layered : Module where
  name := "layered"
  functions := [
    { symbol := "outer", params := [(⟨0⟩, .int 32)], ret := .int 32
      blocks := [{ id := ⟨0⟩, ops := [
        ⟨some ⟨1⟩, .int 32, .call "middle" [.value ⟨0⟩] false⟩,
        .void (.ret (some (.value ⟨1⟩)))] }] },
    { symbol := "middle", params := [(⟨0⟩, .int 32)], ret := .int 32
      blocks := [{ id := ⟨0⟩, ops := [
        ⟨some ⟨1⟩, .int 32, .call "identity" [.value ⟨0⟩] false⟩,
        .void (.ret (some (.value ⟨1⟩)))] }] },
    identity]

/-- The first round copies a call that is left for the second. -/
theorem optimize_settles_layered : layered.verify = .ok () ∧
    (optimize { maxIterations := 1 } layered).2 ≠ (optimize { maxIterations := 2 } layered).2 ∧
    (∃ k < enough {} layered, ∃ m', iterate {} k layered = .ok m' ∧ Settled {} m') ∧
    ∀ n, enough {} layered ≤ n → optimize { maxIterations := n } layered =
      optimize { maxIterations := enough {} layered } layered := by
  have hm : layered.verify = .ok () := by decide
  obtain ⟨hsettled, hstable⟩ := optimize_settles {} hm
  exact ⟨hm, by decide +kernel, hsettled, hstable⟩

end PassEngine.Inline
