import JobLoom.Error

/-!
# Label stores

A label store holds payloads under a namespace and a key. Looking one up finds it, finds nothing or
fails; a store may also crash, which is not an answer.
-/

namespace JobLoom

/-- What a store answers. -/
inductive Answer where
  /-- the payload -/
  | found (payload : List UInt8)
  /-- there is none -/
  | missing
  /-- it cannot be looked up -/
  | failed (e : ConvertError)
  deriving DecidableEq

/-- What comes of asking a store. -/
inductive Reply where
  /-- an answer -/
  | answer (a : Answer)
  /-- the store broke down -/
  | crash (text : String)
  deriving DecidableEq

/-- A store, as what it replies to a namespace and a key. -/
abbrev Store := String → String → Reply

/-- A store, as those see it who use one namespace of it. -/
def Store.within (s : Store) (space : String) : Store := fun space' key =>
  if space' = space then s space' key else .answer .missing

/-- The store crashes for no namespace and key. -/
def Store.IsSteady (s : Store) : Prop := ∀ space key, ∃ a, s space key = .answer a

end JobLoom
