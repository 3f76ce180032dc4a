namespace PassEngine

/-- The names of a closed set, from which each member can be told. -/
structure Naming (α : Type) where
  all : List α
  name : α → String
  find_name : ∀ a, all.find? (fun b => name b == name a) = some a

namespace Naming

variable {α : Type}

def ofName? (names : Naming α) (s : String) : Option α :=
  names.all.find? fun a => names.name a == s

@[simp] theorem ofName?_name (names : Naming α) (a : α) :
    names.ofName? (names.name a) = some a :=
  names.find_name a

end Naming

end PassEngine
