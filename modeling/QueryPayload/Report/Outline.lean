/-!
# Outlines

A text of lines, each indented according to how deep it is nested.

## Main definitions

* `Outline` — the text so far and the current depth.
* `Outline.line` — adds a line; `Outline.nested` — lets lines be added one level deeper.
-/

set_option relaxedAutoImplicit false
set_option autoImplicit false

namespace QueryPayload

/-- An indented text in the making. -/
structure Outline where
  depth : Nat
  text : String
  deriving DecidableEq, Repr

namespace Outline

/-- No lines yet, at the outermost level. -/
def empty : Outline := ⟨0, ""⟩

/-- The indentation of a level: two blanks for each level outside it. -/
def indentation (depth : Nat) : String := String.join (List.replicate depth "  ")

/-- Adds a line at the current depth. -/
def line (o : Outline) (content : String) : Outline :=
  ⟨o.depth, o.text ++ indentation o.depth ++ content ++ "\n"⟩

/-- Lets `body` add lines one level deeper. -/
def nested (o : Outline) (body : Outline → Outline) : Outline :=
  let inner := body ⟨o.depth + 1, o.text⟩
  ⟨inner.depth - 1, inner.text⟩

/-- Adds a line for each item. -/
def lines {α : Type} (o : Outline) (label : α → String) (items : List α) : Outline :=
  items.foldl (fun o item => o.line (label item)) o

end Outline

end QueryPayload
