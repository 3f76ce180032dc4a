import PassEngine.Proofs.Dialect.Verdict
import PassEngine.Proofs.Inline.Growth

namespace PassEngine

namespace Dialect.Function

/-- Called with `args`, the body gives back `x` as it was passed: it has one return, and what this
one returns is a parameter for which `x` is passed. -/
def GivesBack (f : Function) (args : List Operand) (x : Operand) : Prop :=
  f.returnCount = 1 ∧ ∃ o ∈ f.ops, ∃ p, o.kind = .ret (some (.value p)) ∧
    (p, x) ∈ (f.params.map (·.1)).zip args

end Dialect.Function

namespace Dialect.Module

variable {m : Module} {i : Nat} {f : Function} (hm : m.Scoped) (hi : i < m.functions.length)
  (hframed : { m with functions := m.functions.set i f }.Framed)

include hm hi hframed

/-- A function that takes the place of another decides alone whether all that is read is
defined. -/
theorem verify_set_iff :
    { m with functions := m.functions.set i f }.verify = .ok () ↔ f.Scoped := by
  rw [verify_eq_ok_iff]
  constructor
  · rintro ⟨-, hscoped⟩
    exact hscoped f (List.mem_set hi f)
  · intro hf
    exact ⟨hframed, Inline.forall_mem_set hm hf⟩

theorem verify_set_eq_error (hf : ¬f.Scoped) : ∃ o ∈ f.ops, ∃ v ∈ o.uses, v ∉ f.definitions ∧
    ∃ b, { m with functions := m.functions.set i f }.verify =
      .error (.undefinedValue f.symbol b v) := by
  cases hfault : { m with functions := m.functions.set i f }.fault? with
  | none =>
    have hok : { m with functions := m.functions.set i f }.verify = .ok () := by rw [verify, hfault]
    exact absurd ((verify_set_iff hm hi hframed).1 hok) hf
  | some e =>
    obtain ⟨g, hg, b, hb, o, ho, v, hv, hundefined, rfl⟩ :=
      (exhibits_of_fault? hfault).undefinedValue_of_framed hframed
    have ho := Function.mem_ops_iff.2 ⟨b, hb, ho⟩
    rcases List.mem_or_eq_of_mem_set hg with hg | rfl
    · exact absurd (hm g hg o ho v hv) hundefined
    · exact ⟨o, ho, v, hv, hundefined, b.id, by rw [verify, hfault]⟩

end Dialect.Module

namespace Inline

open Dialect

theorem identity_givesBack_iff {x y : Operand} : identity.GivesBack [x] y ↔ y = x := by
  have hcount : identity.returnCount = 1 := rfl
  rw [Function.GivesBack, hcount]
  simp [Function.ops, identity, Op.void]

/-- The call defines `r` and passes it for what the body gives back, and `f`, which has the body in
the place of the call, still reads it. -/
structure Strands (call : Op) (args : List Operand) (callee f : Function) (r : ValueId) : Prop where
  result : call.result = some r
  givesBack : callee.GivesBack args (.value r)
  read : ∃ o ∈ f.ops, r ∈ o.uses

namespace Splicing

variable {caller callee : Function} (s : Splicing caller callee)

theorem merged_eq_replace_self_iff (h : callee.definitions.Nodup) {r : ValueId} :
    s.merged = .replace r (.value r) ↔
      s.call.result = some r ∧ callee.GivesBack s.args (.value r) := by
  constructor
  · intro hm
    obtain ⟨hr, hundef | ⟨o, ho, z, hk, hz⟩⟩ := s.of_merged_eq_replace hm
    · cases hundef
    refine ⟨hr, ?_, o, ho, ?_⟩
    · -- With several returns there would be a phi.
      have hsome : 0 < callee.returnCount :=
        List.countP_pos_iff.2 ⟨o, ho, by rw [hk, OpKind.isReturn]⟩
      have hlength := s.length_mergeOps
      simp only [mergeOps, hm, hr, List.length_nil, Option.isSome_some, true_and] at hlength
      split at hlength
      · omega
      · omega
    · obtain ⟨p, rfl, hp | horigin⟩ :=
        s.operand_names_cases h ho (Op.mem_operands_of_ret hk) hz.symm
      · exact ⟨p, hk, hp⟩
      · -- The caller defines the value of the call, which is therefore not fresh.
        have hdef := Function.mem_definitions_of_result s.call_mem_ops hr
        rw [s.origin?_of_mem_definitions hdef] at horigin
        cases horigin
  · rintro ⟨hr, hcount, o, ho, p, hk, hp⟩
    obtain ⟨b, hb, ho⟩ := List.mem_flatMap.1 ho
    have hmem := s.mem_returns_of_ret hb ho hk
    rw [← length_returns s.names, List.length_eq_one_iff] at hcount
    obtain ⟨⟨x, id⟩, hrets⟩ := hcount
    have hx : x = .value r := by
      rw [hrets, List.mem_singleton] at hmem
      have hoperand := Renaming.operand_value ((s.value?_names h).2 (.inl hp))
      exact (Prod.mk.inj hmem).1.symm.trans hoperand
    rw [merged, hrets, hx]
    simp [merge, hr]

theorem not_mem_definitions_of_merged_eq (hcaller : caller.definitions.Nodup)
    (hcallee : callee.definitions.Nodup) {r : ValueId} {x : Operand}
    (hm : s.merged = .replace r x) : r ∉ s.result.definitions := by
  obtain ⟨hr, -⟩ := s.of_merged_eq_replace hm
  have hnone : s.mergeOps = [] := by rw [mergeOps, hm]
  rw [s.definitions_caller_perm.nodup_iff, hr] at hcaller
  have hkept := List.disjoint_of_nodup_append hcaller
  rw [s.definitions_result_perm.mem_iff, hnone, List.filterMap_nil, List.append_nil,
    List.mem_append]
  rintro (hmem | hmem)
  · exact hkept hmem (by simp)
  · have hfresh := (s.results_copied_sublist hcallee).subset hmem
    apply s.not_mem_definitions_of_mem_fresh hfresh
    exact Function.mem_definitions_of_result s.call_mem_ops hr

/-- What is read but not defined after the splicing is what it strands. -/
theorem strands_iff (hcaller : caller.Scoped) (hnodup : caller.definitions.Nodup)
    (h : callee.definitions.Nodup) (hplain : callee.ReturnsPlain) {r : ValueId} :
    Strands s.call s.args callee s.result r ↔
      (∃ o ∈ s.result.ops, r ∈ o.uses) ∧ r ∉ s.result.definitions := by
  constructor
  · intro hstrands
    have hm := (s.merged_eq_replace_self_iff h).2 ⟨hstrands.result, hstrands.givesBack⟩
    exact ⟨hstrands.read, s.not_mem_definitions_of_merged_eq hnodup h hm⟩
  · rintro ⟨⟨o, ho, hv⟩, hundefined⟩
    have hm := (s.mem_definitions_or_merged_eq hcaller h hplain ho hv).resolve_left hundefined
    obtain ⟨hr, hback⟩ := (s.merged_eq_replace_self_iff h).1 hm
    exact ⟨hr, hback, o, ho, hv⟩

theorem scoped_result_iff (hcaller : caller.Scoped) (hnodup : caller.definitions.Nodup)
    (h : callee.definitions.Nodup) (hplain : callee.ReturnsPlain) :
    s.result.Scoped ↔ ¬∃ r, Strands s.call s.args callee s.result r := by
  simp only [s.strands_iff hcaller hnodup h hplain]
  constructor
  · rintro hscoped ⟨r, ⟨o, ho, hread⟩, hundefined⟩
    exact hundefined (hscoped o ho r hread)
  · intro hnone o ho v hv
    by_contra hundefined
    exact hnone ⟨v, ⟨o, ho, hv⟩, hundefined⟩

end Splicing

section Module

variable {m : Module} {i k block op : Nat} {caller callee : Function} {call : Op} {symbol : String}
  {args : List Operand} {known : Bool}

theorem exists_splicing (hm : m.verify = .ok ()) (hcallee : callee ∈ m.functions)
    (hbody : callee.hasBody = true) (hcall : caller.op? block op = some call)
    (hkind : call.kind = .call symbol args known) (hargs : args.length = callee.params.length)
    (hroom : HasRoom caller callee) :
    ∃ s : Splicing caller callee, splice caller block op callee = .ok s.result ∧
      s.call = call ∧ s.args = args := by
  obtain ⟨f, hf⟩ := exists_splice_of_verify hm hcallee hbody hcall hkind hargs hroom
  obtain ⟨s, hblock, hhead, rfl⟩ := Splicing.exists_of_splice hf
  have hsame : s.call = call := by
    have hat := s.op?_caller
    rw [hblock, hhead, hcall] at hat
    exact (Option.some.inj hat).symm
  have hkinds := s.kind_eq
  rw [hsame, hkind] at hkinds
  cases hkinds
  exact ⟨s, hf, hsame, rfl⟩

/-- A call in a verified module can be replaced by the body. The module is then verified unless the
value of the call is stranded, and in that case this value is what is undefined. -/
theorem verify_splice_iff (hm : m.verify = .ok ()) (hcaller : m.functions[i]? = some caller)
    (hcallee : m.functions[k]? = some callee) (hbody : callee.hasBody = true)
    (hplain : callee.ReturnsPlain) (hcall : caller.op? block op = some call)
    (hkind : call.kind = .call symbol args known) (hargs : args.length = callee.params.length)
    (hroom : HasRoom caller callee) :
    ∃ f, splice caller block op callee = .ok f ∧
      ({ m with functions := m.functions.set i f }.verify = .ok () ↔
        ¬∃ r, Strands call args callee f r) ∧
      ∀ r, Strands call args callee f r → r ∉ f.definitions ∧
        ∃ b, { m with functions := m.functions.set i f }.verify =
          .error (.undefinedValue caller.symbol b r) := by
  have hmem := List.mem_of_getElem? hcaller
  have hmem' := List.mem_of_getElem? hcallee
  obtain ⟨hi, -⟩ := List.getElem?_eq_some_iff.1 hcaller
  obtain ⟨s, hs, rfl, rfl⟩ := exists_splicing hm hmem' hbody hcall hkind hargs hroom
  obtain ⟨hframed, hscoped⟩ := m.verify_eq_ok_iff.1 hm
  have hinline : inlineSite m ⟨i, block, op, k⟩ =
      .ok { m with functions := m.functions.set i s.result } := by
    simp only [inlineSite, hcaller, hcallee, hs]
    rfl
  have hrules := framed_inlineSite hinline hframed
  obtain ⟨hcallerExt, hcalleeExt⟩ := s.isExternal_eq_false hframed hmem hmem'
  have hcallerScoped := hscoped caller hmem
  have hcallerNodup := (hframed.bodies caller hmem hcallerExt).definitions_nodup
  have hcalleeNodup := (hframed.bodies callee hmem' hcalleeExt).definitions_nodup
  have hiff := s.scoped_result_iff hcallerScoped hcallerNodup hcalleeNodup hplain
  refine ⟨s.result, hs, ?_, fun r hr => ?_⟩
  · rw [Module.verify_set_iff hscoped hi hrules, hiff]
  · obtain ⟨o, ho, v, hv, hundefined, b, he⟩ :=
      Module.verify_set_eq_error hscoped hi hrules fun h => hiff.1 h ⟨r, hr⟩
    -- Only the value of the call can be stranded.
    have hstrands := (s.strands_iff hcallerScoped hcallerNodup hcalleeNodup hplain).2
      ⟨⟨o, ho, hv⟩, hundefined⟩
    have hvr := hr.result.symm.trans hstrands.result
    cases hvr
    exact ⟨hundefined, b, he⟩

end Module

/-- A call that reads its own value strands it. One that is passed another value does not. -/
theorem verify_splice_identity :
    (∃ caller f, selfReading.functions[1]? = some caller ∧ splice caller 0 0 identity = .ok f ∧
      ∃ b, { selfReading with functions := selfReading.functions.set 1 f }.verify =
        .error (.undefinedValue "main" b ⟨0⟩)) ∧
    ∃ caller f, chained.functions[1]? = some caller ∧ splice caller 0 1 identity = .ok f ∧
      { chained with functions := chained.functions.set 1 f }.verify = .ok () := by
  have hplain : identity.ReturnsPlain := by
    simp [Function.ReturnsPlain, Function.ops, identity, Op.void]
  constructor
  · have hm : selfReading.verify = .ok () := by decide
    have hcaller : selfReading.functions[1]? = some selfReading.functions[1] := rfl
    have hcallee : selfReading.functions[0]? = some identity := rfl
    have hcall : selfReading.functions[1].op? 0 0 =
        some ⟨some ⟨0⟩, .int 32, .call "identity" [.value ⟨0⟩] false⟩ := rfl
    obtain ⟨f, hf, -, herror⟩ :=
      verify_splice_iff hm hcaller hcallee rfl hplain hcall rfl rfl (by decide)
    have hread : ∃ o ∈ f.ops, ⟨0⟩ ∈ o.uses := by
      have hreads : ((splice selfReading.functions[1] 0 0 identity).toOption.any fun f =>
          f.ops.any fun o => ⟨0⟩ ∈ o.uses) = true := by decide +kernel
      simpa [hf, Except.toOption] using hreads
    obtain ⟨-, hverify⟩ := herror ⟨0⟩ ⟨rfl, identity_givesBack_iff.2 rfl, hread⟩
    exact ⟨_, f, hcaller, hf, hverify⟩
  · have hm : chained.verify = .ok () := by decide
    have hcaller : chained.functions[1]? = some chained.functions[1] := rfl
    have hcallee : chained.functions[0]? = some identity := rfl
    have hcall : chained.functions[1].op? 0 1 =
        some ⟨some ⟨2⟩, .int 32, .call "identity" [.value ⟨1⟩] false⟩ := rfl
    obtain ⟨f, hf, hiff, -⟩ :=
      verify_splice_iff hm hcaller hcallee rfl hplain hcall rfl rfl (by decide)
    refine ⟨_, f, hcaller, hf, hiff.2 ?_⟩
    rintro ⟨r, hr, hback, -⟩
    cases hr
    have := identity_givesBack_iff.1 hback
    simp at this

end Inline

end PassEngine
