/-!
# Optional values of selections

The accessors that answer for every kind of selection give nothing where the kind has no such
value.  Whoever needs an answer all the same says here what absence is to mean.

## Main definitions

* `orFalse` — absence as falsehood.
* `required` — absence as an error, `Absent`.
-/

set_option relaxedAutoImplicit false
set_option autoImplicit false

namespace QueryPayload

/-- Something needed is not there. -/
structure Absent where
  what : String
  deriving DecidableEq, Repr

/-- The wording of an absence. -/
def Absent.message (a : Absent) : String :=
  "Expected " ++ a.what ++ " to be present, but it was absent."

/-- A flag that is off where it does not apply. -/
def orFalse (flag : Option Bool) : Bool := flag.getD false

/-- A value that is needed under the given description. -/
def required {α : Type} (what : String) : Option α → Except Absent α
  | some a => .ok a
  | none => .error ⟨what⟩

end QueryPayload
