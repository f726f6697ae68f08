/-!
# Lists of errors

## Main definitions

* `ErrorChain` — an error and what it was met on the way to, outermost first.
* `ErrorChain.text` — the chain on one line.
* `ErrorList.text` — several errors under a heading that counts them.
-/

set_option relaxedAutoImplicit false
set_option autoImplicit false

namespace QueryPayload

/-- An error with its context: each message explains the one before it. -/
structure ErrorChain where
  messages : List String
  deriving DecidableEq, Repr

namespace ErrorChain

/-- An error without context. -/
def of (message : String) : ErrorChain := ⟨[message]⟩

/-- An error met while doing something else. -/
def within (context : String) (e : ErrorChain) : ErrorChain := ⟨context :: e.messages⟩

/-- An error on one line. -/
def text (e : ErrorChain) : String := ": ".intercalate e.messages

end ErrorChain

namespace ErrorList

/-- Errors under a heading that counts them. -/
def text (errors : List ErrorChain) : String :=
  "❌ " ++ toString errors.length ++ " error(s):" ++
    String.join (errors.map fun e => "\n  * " ++ e.text)

end ErrorList

end QueryPayload
