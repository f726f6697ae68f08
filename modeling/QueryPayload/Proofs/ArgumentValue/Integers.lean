import Mathlib.Tactic.Lemma
import QueryPayload.Proofs.Json.Numeral
import QueryPayload.Proofs.Schema.Agreement

/-!
# Integers in the values of arguments

Wherever an integer literal stands in a text, alone or nested in lists and objects, it is taken for
the same value of an argument.  Integers beyond 64 bits are not refused, as one might expect, but
taken for binary64 numbers.

## Main definitions

* `Json.children`, `ArgumentValue.children` — the items of a list, the values of an object.
* `Json.Source.SpelledAt` — an integer literal stands at a path of a value of a text.

## Main results

* `ArgumentValue.decode_integerLiteral` — what integer literals are taken for, at any depth.
-/

set_option relaxedAutoImplicit false
set_option autoImplicit false

namespace QueryPayload

/-! ## Paths in trees and values -/

/-- The items of an array, the values of an object. -/
def Json.children : Json → List Json
  | .arr items => items
  | .obj entries => entries.map (·.2)
  | _ => []

/-- The items of a list, the values of an object. -/
def ArgumentValue.children : ArgumentValue → List ArgumentValue
  | .list items => items
  | .object entries => entries.map (·.2)
  | _ => []

/-- The tree of a number. -/
lemma Json.Source.tree_number_eq_ok_iff {start stop : Nat}
    {value : Except Json.Fault Json.Number} {v : Json} :
    (scalar start (.number value) stop).tree .refused = .ok v ↔
      ∃ n, value = .ok n ∧ v = .num n := by
  simp [tree_scalar_eq_ok_iff]

/-- The children of a value have the children of its tree for trees. -/
lemma Json.Source.forall₂_children {s : Json.Source} {v : Json} (h : s.tree .refused = .ok v) :
    List.Forall₂ (fun s v => s.tree .refused = .ok v) s.children v.children := by
  cases s with
  | scalar start value stop =>
    rcases tree_scalar_eq_ok_iff.1 h with ⟨-, rfl⟩ | ⟨b, -, rfl⟩ | ⟨n, -, rfl⟩ | ⟨t, -, rfl⟩ <;>
      exact .nil
  | broken start beginning fault skipFault => cases h
  | array start level items =>
    obtain ⟨-, -, vs, hvs, rfl⟩ := tree_array_eq_ok_iff.1 h
    exact hvs
  | object start level entries =>
    obtain ⟨-, -, hnodup, es, hes, rfl⟩ := tree_object_eq_ok_iff.1 h
    have hkeys : (es.map (·.1)).Nodup := keys_eq_of_entries hes ▸ hnodup rfl
    have hall : Json.putAll [] es = es := Json.putAll_of_nodup hkeys fun _ _ => List.not_mem_nil
    rw [children, Json.children, hall, List.forall₂_map_left_iff, List.forall₂_map_right_iff]
    exact hes.imp fun _ _ => And.right

/-- The children of a tree stand for the children of the value it stands for. -/
lemma ArgumentValue.forall₂_children {v : Json} {a : ArgumentValue} (h : ofJson? v = .ok a) :
    List.Forall₂ (fun v a => ofJson? v = .ok a) v.children a.children := by
  cases v with
  | arr items =>
    obtain ⟨as, has, rfl⟩ := ofJson?_arr_eq_ok_iff.1 h
    exact has
  | obj entries =>
    obtain ⟨as, has, rfl⟩ := ofJson?_obj_eq_ok_iff.1 h
    rw [Json.children, children, List.forall₂_map_left_iff, List.forall₂_map_right_iff]
    exact has.imp fun _ _ => And.right
  | num n =>
    rcases ofNumber?_eq_ok_iff.1 h with ⟨i, -, -, rfl⟩ | ⟨x, -, -, rfl⟩ <;> exact .nil
  | null => cases h; exact .nil
  | bool b => cases h; exact .nil
  | str s => cases h; exact .nil

/-! ## Literals in texts -/

namespace Json.Source

/-- At the path in a value of a text stands a number, spelled as the literal. -/
def SpelledAt (text : List UInt8) (path : List Nat) (l : IntegerLiteral) (s : Source) : Prop :=
  ∃ start value stop, descend children path s = some (.scalar start (.number value) stop) ∧
    slice text start stop = l.text

variable {text : List UInt8} {path : List Nat} {l : IntegerLiteral} {s : Source} {v : Json}

/-- A literal that stands in a text is read as itself. -/
lemma StandsIn.value_eq (hs : s.StandsIn text) (h : s.SpelledAt text path l) :
    ∃ start stop,
      descend children path s = some (.scalar start (.number (l.numeral.value stop)) stop) := by
  obtain ⟨start, value, stop, hnode, hspelled⟩ := h
  obtain ⟨n, ⟨after, hscan⟩, rfl⟩ := hs.of_descend hnode
  obtain ⟨-, behind, -, hpasses⟩ := Numeral.passes_of_scan hscan
  have hon : Cursor.On text ⟨start, text.drop start⟩ := rfl
  have hbytes := hon.slice_eq hpasses
  rw [hspelled] at hbytes
  rw [← hbytes] at hpasses
  obtain rfl := IntegerLiteral.eq_numeral_of_scan hscan hpasses
  exact ⟨start, stop, hnode⟩

/-- The tree that is kept of a value has a number where a literal stands. -/
lemma StandsIn.tree_num (hs : s.StandsIn text) (h : s.SpelledAt text path l)
    (hv : s.tree .refused = .ok v) :
    ∃ n stop, l.numeral.value stop = .ok n ∧ descend Json.children path v = some (.num n) := by
  obtain ⟨start, stop, hnode⟩ := hs.value_eq h
  have hrel := rel_descend (fun _ _ => forall₂_children) hv path
  rw [hnode] at hrel
  generalize hw : descend Json.children path v = w at hrel
  cases hrel with
  | some htree =>
    obtain ⟨n, hn, rfl⟩ := tree_number_eq_ok_iff.1 htree
    exact ⟨n, stop, hn, rfl⟩

end Json.Source

namespace ArgumentValue

/-- At the path in a value stands what the literal is taken for, and it is taken for something. -/
def Holds (a : ArgumentValue) (path : List Nat) (l : Json.IntegerLiteral) : Prop :=
  ∃ b, l.argument? = some b ∧ descend children path a = some b

/-- Where a tree has the number of a literal, the value it stands for has what the literal is taken
for. -/
lemma holds_of_tree_num {l : Json.IntegerLiteral} {n : Json.Number} {stop : Nat}
    (hn : l.numeral.value stop = .ok n) {v : Json} {a : ArgumentValue} (ha : ofJson? v = .ok a)
    {path : List Nat} (hv : descend Json.children path v = some (.num n)) : a.Holds path l := by
  have hrel := rel_descend (fun _ _ => forall₂_children) ha path
  rw [hv] at hrel
  generalize hw : descend children path a = w at hrel
  cases hrel with
  | some hnumber => exact ⟨_, (Json.IntegerLiteral.value_eq_ok_iff stop).1 ⟨n, hn, hnumber⟩, hw⟩

end ArgumentValue

/-- A tree is read as the value of an argument that it stands for. -/
lemma Json.read_argumentValue_iff {v : Json} {a : ArgumentValue} :
    v.read .argumentValue = .ok a ↔ ArgumentValue.ofJson? v = .ok a := by
  have hread : v.read .argumentValue = readAs v [] [] .argumentValue := by cases v <;> rfl
  rw [hread, readAs]
  cases ArgumentValue.ofJson? v <;> simp

namespace ArgumentValue

open Json.Source (scan SpelledAt standsIn_scan)

/-- A text is decoded as the value of an argument that its tree stands for. -/
lemma decode_eq_ok_iff {text : List UInt8} {a : ArgumentValue} :
    Shape.argumentValue.decode text = .ok a ↔
      ∃ v, (scan text).1.tree .refused = .ok v ∧ ofJson? v = .ok a ∧ (scan text).2 = none := by
  rw [Shape.decode_eq_ok_iff, Json.Source.read_eq_ok_iff_of_keepsTree rfl]
  constructor
  · rintro ⟨⟨v, hv, ha⟩, hend⟩
    exact ⟨v, hv, Json.read_argumentValue_iff.1 ha, hend⟩
  · rintro ⟨v, hv, ha, hend⟩
    exact ⟨⟨v, hv, Json.read_argumentValue_iff.2 ha⟩, hend⟩

/-- A text that is an integer literal decodes to what the literal is taken for. -/
lemma decode_text_iff {l : Json.IntegerLiteral} {a : ArgumentValue} :
    Shape.argumentValue.decode l.text = .ok a ↔ l.argument? = some a := by
  rw [decode_eq_ok_iff, Json.Source.scan_eq_of_numeral l.scan_text,
    ← Json.IntegerLiteral.value_eq_ok_iff l.text.length]
  constructor
  · rintro ⟨v, hv, ha, -⟩
    obtain ⟨n, hn, rfl⟩ := Json.Source.tree_number_eq_ok_iff.1 hv
    exact ⟨n, hn, ha⟩
  · rintro ⟨n, hn, ha⟩
    exact ⟨.num n, Json.Source.tree_number_eq_ok_iff.2 ⟨n, hn, rfl⟩, ha, rfl⟩

/-- **Integer literals in the values of arguments.**  A text that is an integer literal decodes to
what the literal is taken for, if it is taken for something.  In a text that decodes to the value of
an argument, every literal at every depth is taken for something, and that stands at the same place
of the value.  The same holds in a selection, of which a tree is kept first: a part of the tree that
is read as the value of an argument has at every depth what the literals there are taken for.

The binary64 number that a literal is taken for is close to its integer, and up to `10 ^ 308` there
is one for every literal beyond 64 bits.

**Proof sketch.** A number is read at its own place of the text (`Json.Source.standsIn_scan`), and
there it is the literal (`Json.Source.StandsIn.tree_num`).  From the text to the tree and on to the
value, the parts keep their places (`holds_of_tree_num`). -/
theorem decode_integerLiteral (l : Json.IntegerLiteral) :
    (∀ a, Shape.argumentValue.decode l.text = .ok a ↔ l.argument? = some a) ∧
    (∀ text a path, Shape.argumentValue.decode text = .ok a →
      (scan text).1.SpelledAt text path l → a.Holds path l) ∧
    (∀ text place selection v path w a path',
      descend Json.Source.children place (scan text).1 = some selection →
      selection.tree .refused = .ok v → descend Json.children path v = some w →
      w.read .argumentValue = .ok a → selection.SpelledAt text (path ++ path') l →
      a.Holds path' l) ∧
    (∀ x, l.argument? = some (.float x) →
      x.isFinite = true ∧ |x.signedValue - l.value| ≤ |(l.value : ℚ)| / 2 ^ 50) ∧
    (l.value < -2 ^ 63 ∨ 2 ^ 64 ≤ l.value → l.value.natAbs ≤ 10 ^ 308 →
      ∃ x, l.argument? = some (.float x)) := by
  refine ⟨fun a => decode_text_iff, fun text a path ha hspelled => ?_, ?_,
    fun x => Json.IntegerLiteral.close_of_argument?, fun hbeyond hle =>
    Json.IntegerLiteral.exists_argument?_of_beyond hbeyond (by rwa [Binary64.maxPower])⟩
  · obtain ⟨v, hv, ha, -⟩ := decode_eq_ok_iff.1 ha
    obtain ⟨n, stop, hn, hnum⟩ := (standsIn_scan text).tree_num hspelled hv
    exact holds_of_tree_num hn ha hnum
  · intro text place selection v path w a path' hplace hv hw ha hspelled
    have hstands := (standsIn_scan text).of_descend hplace
    obtain ⟨n, stop, hn, hnum⟩ := hstands.tree_num hspelled hv
    rw [descend_append, hw] at hnum
    exact holds_of_tree_num hn (Json.read_argumentValue_iff.1 ha) hnum

/-- The literal for the smallest integer that has no 64 bits. -/
def beyond64Bits : Json.IntegerLiteral :=
  ⟨false, Utf8.bytes "18446744073709551616", by decide,
    List.all_eq_true.1 (by decide), fun h => absurd h (by decide)⟩

/-- The literal for minus zero. -/
def minusZero : Json.IntegerLiteral :=
  ⟨true, [Byte.zero], by decide, List.all_eq_true.1 (by decide), fun _ => rfl⟩

/-- Integers are not always refused where they do not fit, and not always kept where they do: what
is beyond 64 bits is taken for a binary64 number, and so is minus zero. -/
theorem decode_beyond64Bits :
    beyond64Bits.value = 2 ^ 64 ∧ minusZero.value = 0 ∧
      Shape.argumentValue.decode beyond64Bits.text = .ok (.float ⟨false, 0x43F0000000000000⟩) ∧
      Shape.argumentValue.decode minusZero.text = .ok (.float (.zero true)) := by
  have hbeyond : beyond64Bits.numeral.float? = some ⟨false, 0x43F0000000000000⟩ := by
    decide +kernel
  refine ⟨by decide, by decide, decode_text_iff.2 ?_, decode_text_iff.2 ?_⟩
  · rw [Json.IntegerLiteral.argument?, if_neg (by decide), if_neg (by decide),
      if_neg (by decide), hbeyond]
    rfl
  · rw [Json.IntegerLiteral.argument?, if_pos (by decide)]

end ArgumentValue

end QueryPayload
