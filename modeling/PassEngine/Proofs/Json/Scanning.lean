import Mathlib.Data.List.Nodup
import Mathlib.Data.List.TakeDrop
import Mathlib.Data.List.TakeWhile
import PassEngine.Json.Parser
import PassEngine.Json.Printer

namespace PassEngine.Json

/-- The values that their text brings back: nothing in them is broken, integers fit into 64 bits,
and no object has a key twice. -/
inductive Faithful : Json → Prop
  | null : Faithful .null
  | bool (b : Bool) : Faithful (.bool b)
  | int {n : Int} (hmin : Int64.minValue.toInt ≤ n) (hmax : n < UInt64.size) : Faithful (.int n)
  | real : Faithful .real
  | str (s : String) : Faithful (.str s)
  | arr {items : List Json} (h : ∀ j ∈ items, Faithful j) : Faithful (.arr items)
  | obj {members : List (String × Json)} (hkeys : (members.map (·.1)).Nodup)
    (h : ∀ m ∈ members, Faithful m.2) : Faithful (.obj members)

mutual

def tokens : Json → List Token
  | arr items => .openArray :: itemTokens items ++ [.closeArray]
  | obj members => .openObject :: memberTokens members ++ [.closeObject]
  | str s => [.text (some s)]
  | j => [.atom j]

def itemTokens : List Json → List Token
  | [] => []
  | [j] => tokens j
  | j :: js => tokens j ++ .comma :: itemTokens js

def memberTokens : List (String × Json) → List Token
  | [] => []
  | [(k, j)] => .text (some k) :: .colon :: tokens j
  | (k, j) :: ms => .text (some k) :: .colon :: tokens j ++ .comma :: memberTokens ms

end

section Fold

variable {σ α : Type} {f : σ → α → Option σ} {s s' : σ}

theorem foldlM_cons_of_eq_some {a : α} (h : f s a = some s') (as : List α) :
    (a :: as).foldlM f s = as.foldlM f s' := by
  rw [List.foldlM_cons, h]
  rfl

theorem foldlM_append_of_eq_some {as : List α} (h : as.foldlM f s = some s') (bs : List α) :
    (as ++ bs).foldlM f s = bs.foldlM f s' := by
  rw [List.foldlM_append, h]
  rfl

end Fold

section Words

theorem ne_quote_of_isWordChar {c : Char} (h : Token.isWordChar c = true) : c ≠ '"' := by
  rintro rfl
  revert h
  decide

theorem isBlank_of_isWordChar {c : Char} (h : Token.isWordChar c = true) :
    Token.isBlank c = false := by
  rw [Token.isBlank, decide_eq_false_iff_not]
  rintro (rfl | rfl | rfl | rfl) <;> revert h <;> decide

theorem isWordChar_of_isDigit {c : Char} (h : c.isDigit = true) : Token.isWordChar c = true := by
  simp [Token.isWordChar, Char.isAlphanum, h]

theorem foldlM_word_from (done w : List Char) (ts : List Token)
    (hw : ∀ c ∈ w, Token.isWordChar c = true) :
    w.foldlM Scanner.step ⟨.word done, ts⟩ = some ⟨.word (w.reverse ++ done), ts⟩ := by
  induction w generalizing done with
  | nil => rfl
  | cons c w ih =>
    obtain ⟨hc, hw⟩ := List.forall_mem_cons.1 hw
    have hstep : Scanner.step ⟨.word done, ts⟩ c = some ⟨.word (c :: done), ts⟩ := by
      simp only [Scanner.step, hc, if_true]
    rw [foldlM_cons_of_eq_some hstep, ih (c :: done) hw]
    simp

/-- Characters of one word are read as such. -/
theorem foldlM_word {w : List Char} (hne : w ≠ []) (ts : List Token)
    (hw : ∀ c ∈ w, Token.isWordChar c = true) :
    w.foldlM Scanner.step ⟨.between, ts⟩ = some ⟨.word w.reverse, ts⟩ := by
  cases w with
  | nil => exact absurd rfl hne
  | cons c w =>
    obtain ⟨hc, hw⟩ := List.forall_mem_cons.1 hw
    have hstep : Scanner.step ⟨.between, ts⟩ c = some ⟨.word [c], ts⟩ := by
      simp [Scanner.step, Scanner.start, isBlank_of_isWordChar hc, ne_quote_of_isWordChar hc, hc]
    rw [foldlM_cons_of_eq_some hstep, foldlM_word_from [c] w ts hw]
    simp

end Words

section Numbers

theorem span_isDigit {ds : List Char} (h : ∀ c ∈ ds, c.isDigit = true) :
    Numeral.digits ds = (ds, []) := by
  rw [Numeral.digits, List.span_eq_takeWhile_dropWhile]
  rw [List.takeWhile_eq_self_iff.2 h, List.dropWhile_eq_nil_iff.2 h]

theorem isDigit_toDigits (n : Nat) : ∀ c ∈ Nat.toDigits 10 n, c.isDigit = true := fun _ hc =>
  Nat.isDigit_of_mem_toDigits (by decide) (by decide) hc

theorem head?_toDigits_ne_zero {n : Nat} (hn : 0 < n) : (Nat.toDigits 10 n).head? ≠ some '0' := by
  induction n using Nat.strongRecOn with
  | ind n ih =>
    by_cases hlt : n < 10
    · rw [Nat.toDigits_of_lt_base hlt]
      simp
      omega
    · rw [Nat.toDigits_of_base_le (by decide) (by omega)]
      have hdiv := ih (n / 10) (by omega) (by omega)
      cases hds : Nat.toDigits 10 (n / 10) with
      | nil => exact absurd hds Nat.toDigits_ne_nil
      | cons d ds =>
        rw [hds] at hdiv
        simpa using hdiv

/-- A printed number has no zero to spare at its front. -/
theorem length_toDigits_of_head? {n : Nat} (h : (Nat.toDigits 10 n).head? = some '0') :
    (Nat.toDigits 10 n).length = 1 := by
  cases n with
  | zero => rfl
  | succ n => exact absurd h (head?_toDigits_ne_zero (Nat.succ_pos n))

theorem sign_of_isDigit {ds : List Char} (hdigits : ∀ c ∈ ds, c.isDigit = true) :
    Numeral.sign ds = (false, ds) := by
  rw [Numeral.sign]
  rintro rest rfl
  exact absurd (hdigits '-' List.mem_cons_self) (by decide)

theorem parse_of_sign {text ds : List Char} {negative : Bool}
    (hsign : Numeral.sign text = (negative, ds)) (hdigits : ∀ c ∈ ds, c.isDigit = true)
    (hne : ds ≠ []) (hzero : ds.head? = some '0' → ds.length = 1) :
    Numeral.parse text = some ⟨negative, ds, none, none⟩ := by
  have hguard : ¬(ds = [] ∨ (ds.head? = some '0' ∧ ds.length ≠ 1)) := by
    rintro (h | ⟨h, hlength⟩)
    · exact hne h
    · exact hlength (hzero h)
  simp only [Numeral.parse, hsign, span_isDigit hdigits, if_neg hguard]
  rfl

theorem sign_digits (n : Int) :
    Numeral.sign (digits n) = (decide (n < 0), Nat.toDigits 10 n.natAbs) := by
  rw [digits]
  split
  · next hn => simp [Numeral.sign, hn]
  · next hn => simp [sign_of_isDigit (isDigit_toDigits n.natAbs), hn]

theorem isWordChar_digits (n : Int) : ∀ c ∈ digits n, Token.isWordChar c = true := by
  have hdigits : ∀ c ∈ Nat.toDigits 10 n.natAbs, Token.isWordChar c = true := fun c hc =>
    isWordChar_of_isDigit (isDigit_toDigits n.natAbs c hc)
  rw [digits]
  split
  · exact List.forall_mem_cons.2 ⟨by decide, hdigits⟩
  · exact hdigits

theorem head?_digits (n : Int) : ∃ c, (digits n).head? = some c ∧ (c = '-' ∨ c.isDigit = true) := by
  rw [digits]
  split
  · exact ⟨'-', rfl, .inl rfl⟩
  · cases hds : Nat.toDigits 10 n.natAbs with
    | nil => exact absurd hds Nat.toDigits_ne_nil
    | cons d ds =>
      refine ⟨d, rfl, .inr (isDigit_toDigits n.natAbs d ?_)⟩
      rw [hds]
      exact List.mem_cons_self

theorem ofWord?_digits {n : Int} (hmin : Int64.minValue.toInt ≤ n) (hmax : n < UInt64.size) :
    Token.ofWord? (digits n) = some (.atom (.int n)) := by
  have hparse := parse_of_sign (sign_digits n) (isDigit_toDigits n.natAbs) Nat.toDigits_ne_nil
    length_toDigits_of_head?
  have hvalue : Numeral.value (Nat.toDigits 10 n.natAbs) = n.natAbs := Nat.ofDigitChars_ten_toDigits
  have hjson : Numeral.toJson ⟨decide (n < 0), Nat.toDigits 10 n.natAbs, none, none⟩ = .int n := by
    simp only [Numeral.toJson, hvalue]
    by_cases hn : n < 0
    · have habs : -(n.natAbs : Int) = n := by omega
      have hpos : 0 < n.natAbs := by omega
      rw [if_neg (by simp [hn]), habs, if_pos ⟨by simp, by simp [hn], hpos, hmin⟩]
    · have habs : (n.natAbs : Int) = n := by omega
      have hlt : n.natAbs < UInt64.size := by omega
      simp [hn, habs, hlt]
  -- No literal name starts with a minus or a digit.
  obtain ⟨c, hhead, hc⟩ := head?_digits n
  have hname (first : Char) (rest : List Char) (hminus : first ≠ '-')
      (hdigit : first.isDigit = false) : digits n ≠ first :: rest := by
    intro h
    rw [h, List.head?_cons, Option.some.injEq] at hhead
    subst hhead
    simp [hminus, hdigit] at hc
  rw [Token.ofWord?, if_neg (hname 'n' _ (by decide) (by decide)),
    if_neg (hname 't' _ (by decide) (by decide)), if_neg (hname 'f' _ (by decide) (by decide)),
    hparse, Option.map_some, hjson]

end Numbers

section Strings

theorem hexValue?_lowerHex : ∀ d < 16, Scanner.hexValue? (lowerHex d) = some d := by
  decide

theorem step_unit {l : Literal} {ts : List Token} {missing value d : Nat} {c : Char}
    (hc : Scanner.hexValue? c = some d) : Scanner.step ⟨.unit l missing value, ts⟩ c =
      if missing = 1 then some ⟨.string (l.pushUnit (16 * value + d)), ts⟩
      else some ⟨.unit l (missing - 1) (16 * value + d), ts⟩ := by
  simp only [Scanner.step, hc, Option.bind_eq_bind, Option.bind_some]

theorem foldlM_escape {l : Literal} (hl : l.high = none) (ts : List Token) (c : Char) :
    (escape c).foldlM Scanner.step ⟨.string l, ts⟩ = some ⟨.string (l.push c), ts⟩ := by
  unfold escape
  split_ifs with hquote hback hb ht hn hf hr hcontrol
  · subst hquote; rfl
  · subst hback; rfl
  · subst hb; rfl
  · subst ht; rfl
  · subst hn; rfl
  · subst hf; rfl
  · subst hr; rfl
  · have hhigh := hexValue?_lowerHex (c.toNat / 16) (by omega)
    have hlow := hexValue?_lowerHex (c.toNat % 16) (by omega)
    have hvalue : 16 * (16 * 0 + c.toNat / 16) + c.toNat % 16 = c.toNat := by omega
    have hunit : l.pushUnit c.toNat = l.push c := by
      have hnotHigh : Literal.isHigh c.toNat = false := by
        simp only [Literal.isHigh, decide_eq_false_iff_not]
        omega
      have hnotLow : Literal.isLow c.toNat = false := by
        simp only [Literal.isLow, decide_eq_false_iff_not]
        omega
      simp [Literal.pushUnit, hl, hnotHigh, hnotLow, Char.ofNat_toNat]
    change List.foldlM Scanner.step ⟨.unit l 2 0, ts⟩ [lowerHex (c.toNat / 16),
      lowerHex (c.toNat % 16)] = _
    rw [foldlM_cons_of_eq_some ((step_unit hhigh).trans (if_neg (by decide))), List.foldlM_cons,
      step_unit hlow, if_pos rfl, hvalue, hunit]
    rfl
  · simp [Scanner.step, hquote, hback, hcontrol]

theorem foldlM_escapes {l : Literal} (hl : l.high = none) (ts : List Token) (cs : List Char) :
    (cs.flatMap escape).foldlM Scanner.step ⟨.string l, ts⟩ =
      some ⟨.string (cs.foldl Literal.push l), ts⟩ := by
  induction cs generalizing l with
  | nil => rfl
  | cons c cs ih =>
    rw [List.flatMap_cons, foldlM_append_of_eq_some (foldlM_escape hl ts c), ih rfl,
      List.foldl_cons]

theorem foldl_push (cs done : List Char) :
    cs.foldl Literal.push ⟨done, none, true⟩ = ⟨cs.reverse ++ done, none, true⟩ := by
  induction cs generalizing done with
  | nil => rfl
  | cons c cs ih =>
    rw [List.foldl_cons]
    change cs.foldl Literal.push ⟨c :: done, none, true⟩ = _
    rw [ih]
    simp

theorem foldlM_quote (s : String) (ts : List Token) :
    (quote s).foldlM Scanner.step ⟨.between, ts⟩ = some ⟨.between, .text (some s) :: ts⟩ := by
  have hopen : Scanner.step ⟨.between, ts⟩ '"' = some ⟨.string ⟨[], none, true⟩, ts⟩ := rfl
  have hclose (l : Literal) : Scanner.step ⟨.string l, ts⟩ '"' =
      some ⟨.between, .text l.close :: ts⟩ := rfl
  have htext : Literal.close ⟨s.toList.reverse ++ [], none, true⟩ = some s := by
    simp [Literal.close]
  rw [quote, List.cons_append, foldlM_cons_of_eq_some hopen,
    foldlM_append_of_eq_some (foldlM_escapes rfl ts s.toList), foldl_push,
    foldlM_cons_of_eq_some (hclose _), htext]
  rfl

end Strings

namespace Scanner

/-- The tokens read so far where a token may end. -/
def settled? (s : Scanner) : Option (List Token) :=
  match s.state with
  | .between => some s.tokens
  | .word done => (Token.ofWord? done.reverse).map (· :: s.tokens)
  | _ => none

variable {s : Scanner} {ts : List Token}

theorem finish_of_settled? (h : s.settled? = some ts) : s.finish = some ts.reverse := by
  obtain ⟨state, tokens⟩ := s
  cases state with
  | between =>
    cases h
    rfl
  | word done =>
    obtain ⟨t, ht, rfl⟩ := Option.map_eq_some_iff.1 h
    simp only [finish, ht]
    rfl
  | _ => cases h

theorem step_of_settled? (h : s.settled? = some ts) {c : Char}
    (hc : Token.isWordChar c = false) : s.step c = start ts c := by
  obtain ⟨state, tokens⟩ := s
  cases state with
  | between =>
    cases h
    rfl
  | word done =>
    obtain ⟨t, ht, rfl⟩ := Option.map_eq_some_iff.1 h
    simp only [step, hc, ht]
    rfl
  | _ => cases h

theorem settled?_word {w : List Char} {t : Token} (h : Token.ofWord? w = some t)
    (ts : List Token) : settled? ⟨.word w.reverse, ts⟩ = some (t :: ts) := by
  simp [settled?, h]

end Scanner

/-- From between two tokens on, a text is read as these tokens. -/
def ReadsAs (text : List Char) (ts : List Token) : Prop :=
  ∀ before, ∃ s, text.foldlM Scanner.step ⟨.between, before⟩ = some s ∧
    s.settled? = some (ts.reverse ++ before)

namespace ReadsAs

variable {text text' : List Char} {ts ts' : List Token}

theorem nil : ReadsAs [] [] := fun before => ⟨⟨.between, before⟩, rfl, rfl⟩

theorem word {w : List Char} {t : Token} (hne : w ≠ [])
    (hw : ∀ c ∈ w, Token.isWordChar c = true) (h : Token.ofWord? w = some t) : ReadsAs w [t] :=
  fun before => ⟨_, foldlM_word hne before hw, Scanner.settled?_word h before⟩

theorem quoted (s : String) : ReadsAs (quote s) [.text (some s)] := fun before =>
  ⟨_, foldlM_quote s before, rfl⟩

theorem mark {c : Char} {t : Token} (h : ReadsAs text ts) (hc : Token.isWordChar c = false)
    (ht : ∀ before, Scanner.start before c = some ⟨.between, t :: before⟩)
    (h' : ReadsAs text' ts') : ReadsAs (text ++ c :: text') (ts ++ t :: ts') := by
  intro before
  obtain ⟨s, hs, hsettled⟩ := h before
  obtain ⟨s', hs', hsettled'⟩ := h' (t :: (ts.reverse ++ before))
  refine ⟨s', ?_, ?_⟩
  · have hmark := (Scanner.step_of_settled? hsettled hc).trans (ht _)
    rw [foldlM_append_of_eq_some hs, foldlM_cons_of_eq_some hmark, hs']
  · rw [hsettled']
    simp

theorem enclosed {c c' : Char} {t t' : Token} (hc : Token.isWordChar c = false)
    (ht : ∀ before, Scanner.start before c = some ⟨.between, t :: before⟩) (h : ReadsAs text ts)
    (hc' : Token.isWordChar c' = false)
    (ht' : ∀ before, Scanner.start before c' = some ⟨.between, t' :: before⟩) :
    ReadsAs (c :: text ++ [c']) (t :: ts ++ [t']) :=
  (nil.mark hc ht h).mark hc' ht' nil

theorem scan (h : ReadsAs text ts) : scan text = some ts := by
  obtain ⟨s, hs, hsettled⟩ := h []
  rw [Json.scan, hs, Option.bind_eq_bind, Option.bind_some, Scanner.finish_of_settled? hsettled]
  simp

end ReadsAs

theorem readsAs_compactItems {items : List Json}
    (h : ∀ j ∈ items, ReadsAs (compact j) (tokens j)) :
    ReadsAs (compactItems items) (itemTokens items) := by
  induction items with
  | nil => exact .nil
  | cons j js ih =>
    obtain ⟨hj, hjs⟩ := List.forall_mem_cons.1 h
    cases js with
    | nil => exact hj
    | cons j' js => exact hj.mark rfl (fun _ => rfl) (ih hjs)

theorem readsAs_compactMembers {members : List (String × Json)}
    (h : ∀ m ∈ members, ReadsAs (compact m.2) (tokens m.2)) :
    ReadsAs (compactMembers members) (memberTokens members) := by
  induction members with
  | nil => exact .nil
  | cons m ms ih =>
    obtain ⟨k, j⟩ := m
    obtain ⟨hj, hms⟩ := List.forall_mem_cons.1 h
    have hmember : ReadsAs (quote k ++ ':' :: compact j) (.text (some k) :: .colon :: tokens j) :=
      (ReadsAs.quoted k).mark rfl (fun _ => rfl) hj
    cases ms with
    | nil => exact hmember
    | cons m' ms =>
      have hmembers : ReadsAs (quote k ++ ':' :: compact j ++ ',' :: compactMembers (m' :: ms))
          (.text (some k) :: .colon :: tokens j ++ .comma :: memberTokens (m' :: ms)) :=
        hmember.mark rfl (fun _ => rfl) (ih hms)
      simpa [compactMembers, memberTokens] using hmembers

theorem digits_ne_nil (n : Int) : digits n ≠ [] := by
  obtain ⟨c, hc, -⟩ := head?_digits n
  intro h
  simp [h] at hc

/-- A value's text without blanks is read as the value's tokens. -/
theorem readsAs_compact {j : Json} (h : j.Faithful) : ReadsAs (compact j) (tokens j) := by
  induction h with
  | null => exact .word nofun (List.all_eq_true.1 rfl) rfl
  | bool b => cases b <;> exact .word nofun (List.all_eq_true.1 rfl) rfl
  | @int n hmin hmax =>
    exact .word (digits_ne_nil n) (isWordChar_digits n) (ofWord?_digits hmin hmax)
  | real => exact .word nofun (List.all_eq_true.1 rfl) rfl
  | str s => exact .quoted s
  | @arr items _ ih =>
    exact .enclosed rfl (fun _ => rfl) (readsAs_compactItems ih) rfl (fun _ => rfl)
  | @obj members _ _ ih =>
    exact .enclosed rfl (fun _ => rfl) (readsAs_compactMembers ih) rfl (fun _ => rfl)

end PassEngine.Json
