import PassEngine.Proofs.Json.Reading

namespace PassEngine.Json

theorem isWordChar_of_isBlank {c : Char} (h : Token.isBlank c = true) :
    Token.isWordChar c = false := by
  by_contra hword
  have hblank := isBlank_of_isWordChar (by simpa using hword)
  rw [h] at hblank
  cases hblank

theorem start_of_isBlank {c : Char} (h : Token.isBlank c = true) (ts : List Token) :
    Scanner.start ts c = some ⟨.between, ts⟩ := by
  unfold Scanner.start
  rw [if_pos h]

theorem isBlank_of_mem_newline {level : Nat} {c : Char} (h : c ∈ newline level) :
    Token.isBlank c = true := by
  rcases List.mem_cons.1 h with rfl | h
  · rfl
  · rw [List.eq_of_mem_replicate h]
    rfl

namespace ReadsAs

variable {text text' blanks : List Char} {ts ts' : List Token}

theorem blank {c : Char} (h : ReadsAs text ts) (hc : Token.isBlank c = true)
    (h' : ReadsAs text' ts') : ReadsAs (text ++ c :: text') (ts ++ ts') := by
  intro before
  obtain ⟨s, hs, hsettled⟩ := h before
  obtain ⟨s', hs', hsettled'⟩ := h' (ts.reverse ++ before)
  have hblank : s.step c = some ⟨.between, ts.reverse ++ before⟩ := by
    rw [Scanner.step_of_settled? hsettled (isWordChar_of_isBlank hc), start_of_isBlank hc]
  refine ⟨s', ?_, ?_⟩
  · rw [foldlM_append_of_eq_some hs, foldlM_cons_of_eq_some hblank, hs']
  · rw [hsettled', List.reverse_append, List.append_assoc]

theorem after_blanks (h : ReadsAs text ts) (hblanks : ∀ c ∈ blanks, Token.isBlank c = true) :
    ReadsAs (blanks ++ text) ts := by
  induction blanks with
  | nil => exact h
  | cons c blanks ih =>
    obtain ⟨hc, hblanks⟩ := List.forall_mem_cons.1 hblanks
    exact nil.blank hc (ih hblanks)

theorem indented (h : ReadsAs text ts) (level : Nat) : ReadsAs (newline level ++ text) ts :=
  h.after_blanks fun _ => isBlank_of_mem_newline

theorem newline (h : ReadsAs text ts) (level : Nat) : ReadsAs (text ++ newline level) ts := by
  have hblanks : ReadsAs (List.replicate (2 * level) ' ' ++ []) [] :=
    nil.after_blanks fun c hc => isBlank_of_mem_newline (List.mem_cons_of_mem '\n' hc)
  simpa [Json.newline] using h.blank (c := '\n') rfl hblanks

end ReadsAs

theorem readsAs_prettyItems {items : List Json} {level : Nat}
    (h : ∀ j ∈ items, ReadsAs (pretty level j) (tokens j)) :
    ReadsAs (prettyItems level items) (itemTokens items) := by
  induction items with
  | nil => exact .nil
  | cons j js ih =>
    obtain ⟨hj, hjs⟩ := List.forall_mem_cons.1 h
    have hitem := hj.indented level
    cases js with
    | nil => exact hitem
    | cons j' js => exact hitem.mark rfl (fun _ => rfl) (ih hjs)

theorem readsAs_prettyMembers {members : List (String × Json)} {level : Nat}
    (h : ∀ m ∈ members, ReadsAs (pretty level m.2) (tokens m.2)) :
    ReadsAs (prettyMembers level members) (memberTokens members) := by
  induction members with
  | nil => exact .nil
  | cons m ms ih =>
    obtain ⟨k, j⟩ := m
    obtain ⟨hj, hms⟩ := List.forall_mem_cons.1 h
    have hvalue : ReadsAs (' ' :: pretty level j) (tokens j) := ReadsAs.nil.blank rfl hj
    have hmember : ReadsAs (newline level ++ quote k ++ ':' :: ' ' :: pretty level j)
        (.text (some k) :: .colon :: tokens j) :=
      ((ReadsAs.quoted k).indented level).mark rfl (fun _ => rfl) hvalue
    cases ms with
    | nil => exact hmember
    | cons m' ms =>
      have hmembers := hmember.mark (c := ',') rfl (fun _ => rfl) (ih hms)
      simpa [prettyMembers, memberTokens] using hmembers

/-- A value's text with a line for each part is read as the value's tokens, like the text without
blanks. -/
theorem readsAs_pretty {j : Json} (h : j.Faithful) (level : Nat) :
    ReadsAs (pretty level j) (tokens j) := by
  induction h generalizing level with
  | @arr items hitems ih =>
    cases items with
    | nil => exact readsAs_compact (.arr hitems)
    | cons j js =>
      have hitems := readsAs_prettyItems fun i hi => ih i hi (level + 1)
      exact .enclosed rfl (fun _ => rfl) (hitems.newline level) rfl fun _ => rfl
  | @obj members hkeys hmembers ih =>
    cases members with
    | nil => exact readsAs_compact (.obj hkeys hmembers)
    | cons m ms =>
      have hmembers := readsAs_prettyMembers fun i hi => ih i hi (level + 1)
      exact .enclosed rfl (fun _ => rfl) (hmembers.newline level) rfl fun _ => rfl
  | null => exact readsAs_compact .null
  | bool b => exact readsAs_compact (.bool b)
  | int hmin hmax => exact readsAs_compact (.int hmin hmax)
  | real => exact readsAs_compact .real
  | str s => exact readsAs_compact (.str s)

theorem parse_toPretty {j : Json} (h : j.Faithful) : parse j.toPretty = some j :=
  parse_of_readsAs h (readsAs_pretty h 0)

end PassEngine.Json
