import Mathlib.Data.List.Forall2
import Mathlib.Tactic.Lemma
import QueryPayload.Proofs.Json.Numeral
import QueryPayload.Proofs.Schema.Agreement
import QueryPayload.Proofs.Schema.Sound

/-!
# Compact texts say what they were written for

A tree is written without blanks.  Scanning the text gives a source tree in which every part of the
tree is found again, and nothing is wrong.

## Main definitions

* `Json.Source.Says` — a source tree says exactly what a tree is, part by part.
* `Json.Spelled` — the numbers in a tree can be written.

## Main results

* `Json.Source.exists_scan_compact` — the text of a tree says what the tree is.
* `Json.Source.Says.tree_eq_ok` — what a source tree says is read, unless it is nested too deeply.
* `Json.ofText_compact` — a tree is read back from its text.
* `Json.decode_compact_of_read` — what is read from a tree is read from its text.

## Implementation notes

`Says` is not bound to a limit of nesting, other than `tree`: a text that is nested too deeply says
something, too, and readers meet the limit only when they come to the bracket.
-/

set_option relaxedAutoImplicit false
set_option autoImplicit false

namespace QueryPayload

namespace Json

/-! ## What a source tree says -/

namespace Source

mutual

/-- A source tree, with the given number of brackets open around it, says exactly what a tree is. -/
inductive Says : Nat → Source → Json → Prop where
  | null {level : Nat} (start stop : Nat) : Says level (.scalar start (.word .null) stop) .null
  | bool {level : Nat} (start : Nat) (b : Bool) (stop : Nat) :
    Says level (.scalar start (.word (.bool b)) stop) (.bool b)
  | num {level : Nat} (start : Nat) (n : Number) (stop : Nat) :
    Says level (.scalar start (.number (.ok n)) stop) (.num n)
  | str {level : Nat} (start : Nat) (s : String) (stop : Nat) :
    Says level (.scalar start (.text (.ok s)) stop) (.str s)
  | arr {level : Nat} (start : Nat) {nodes : Items Source} {items : List Json}
    (h : ItemsSay (level + 1) nodes items) :
    Says level (.array start (level + 1) nodes) (.arr items)
  | obj {level : Nat} (start : Nat) {nodes : Entries Source} {entries : List (String × Json)}
    (h : EntriesSay (level + 1) nodes entries) :
    Says level (.object start (level + 1) nodes) (.obj entries)

/-- The inside of an array says exactly what its items are. -/
inductive ItemsSay : Nat → Items Source → List Json → Prop where
  | close {level : Nat} (offset : Nat) : ItemsSay level (.close offset) []
  | item {level : Nat} {node : Source} {v : Json} (left : Mark) {nodes : Items Source}
    {items : List Json} (h : Says level node v) (hs : ItemsSay level nodes items) :
    ItemsSay level (.item node left nodes) (v :: items)

/-- The inside of an object says exactly what its entries are. -/
inductive EntriesSay : Nat → Entries Source → List (String × Json) → Prop where
  | close {level : Nat} (offset : Nat) : EntriesSay level (.close offset) []
  | entry {level : Nat} {key : Key} {k : String} {node : Source} {v : Json} (left : Mark)
    {nodes : Entries Source} {entries : List (String × Json)} (hkey : key.text = .ok k)
    (h : Says level node v) (hs : EntriesSay level nodes entries) :
    EntriesSay level (.entry key node left nodes) ((k, v) :: entries)

end

/-- The inside of an array that says what items are is closed, and has a node for each of them. -/
lemma ItemsSay.forall₂ {level : Nat} {nodes : Items Source} {items : List Json}
    (h : ItemsSay level nodes items) :
    nodes.Closed ∧ List.Forall₂ (Says level) nodes.toList items := by
  induction items generalizing nodes with
  | nil =>
    cases h
    exact ⟨True.intro, .nil⟩
  | cons v items ih =>
    cases h with
    | item left h hs =>
      obtain ⟨hc, hall⟩ := ih hs
      exact ⟨hc, .cons h hall⟩

/-- The inside of an object that says what entries are is closed, and has a node for each of
them. -/
lemma EntriesSay.forall₂ {level : Nat} {nodes : Entries Source} {entries : List (String × Json)}
    (h : EntriesSay level nodes entries) :
    nodes.Closed ∧
      List.Forall₂ (fun e p => e.1 = p.1 ∧ Says level e.2 p.2) nodes.toList entries := by
  induction entries generalizing nodes with
  | nil =>
    cases h
    exact ⟨True.intro, .nil⟩
  | cons e entries ih =>
    cases h with
    | @entry _ key k node v left rest _ hkey h hs =>
      obtain ⟨hc, hall⟩ := ih hs
      refine ⟨⟨⟨k, hkey⟩, hc⟩, ?_⟩
      simp only [Entries.toList, hkey]
      exact .cons ⟨rfl, h⟩ hall

end Source

/-! ## What can be written -/

mutual

/-- Every number in a tree is written as a numeral that stands for it. -/
def Spelled : Json → Prop
  | .num n => n.Spelled
  | .arr items => ItemsSpelled items
  | .obj entries => EntriesSpelled entries
  | _ => True

/-- Every number in the items of an array is written as a numeral that stands for it. -/
def ItemsSpelled : List Json → Prop
  | [] => True
  | v :: vs => v.Spelled ∧ ItemsSpelled vs

/-- Every number in the values of an object is written as a numeral that stands for it. -/
def EntriesSpelled : List (String × Json) → Prop
  | [] => True
  | (_, v) :: es => v.Spelled ∧ EntriesSpelled es

end

/-- Every number in the items of an array can be written if it can be in each. -/
lemma itemsSpelled_iff {items : List Json} : ItemsSpelled items ↔ ∀ v ∈ items, v.Spelled := by
  induction items with
  | nil => simp [ItemsSpelled]
  | cons v items ih => simp [ItemsSpelled, ih]

/-- Every number in the values of an object can be written if it can be in each. -/
lemma entriesSpelled_iff {entries : List (String × Json)} :
    EntriesSpelled entries ↔ ∀ e ∈ entries, e.2.Spelled := by
  induction entries with
  | nil => simp [EntriesSpelled]
  | cons e entries ih => simp [EntriesSpelled, ih]

/-! ## The bytes around a value -/

/-- What stands behind a value: nothing, a comma or a closing bracket. -/
def Ends (rest : List UInt8) : Prop :=
  ∀ b, rest.head? = some b → b = Byte.comma ∨ b = Byte.closeBracket ∨ b = Byte.closeBrace

/-- A text begins with what can be the first byte of a value: no blank and no closing bracket. -/
def Begins (text : List UInt8) : Prop :=
  ∃ b more, text = b :: more ∧ Byte.isBlank b = false ∧ b ≠ Byte.closeBracket

namespace Cursor

/-- No blanks are passed over where none is. -/
lemma skipBlanks_cons {o : Nat} {b : UInt8} {text : List UInt8} (hb : Byte.isBlank b = false) :
    skipBlanks ⟨o, b :: text⟩ = ⟨o, b :: text⟩ := by
  simp [skipBlanks, hb]

/-- No blanks stand behind a value. -/
lemma skipBlanks_of_ends {o : Nat} {rest : List UInt8} (h : Ends rest) :
    skipBlanks ⟨o, rest⟩ = ⟨o, rest⟩ := by
  cases rest with
  | nil => rfl
  | cons b rest =>
    refine skipBlanks_cons ?_
    obtain rfl | rfl | rfl := h b rfl <;> rfl

end Cursor

/-- What stands behind a value does not continue a numeral. -/
lemma Ends.stops {rest : List UInt8} (h : Ends rest) : Numeral.Stops rest := by
  intro b hb
  obtain rfl | rfl | rfl := h b hb <;> decide

/-! ## Scanning values without parts -/

namespace Source

variable {level o : Nat} {rest : List UInt8}

/-- The bytes of a value are scanned to its end, and say what the value is. -/
def ScansTo (v : Json) (scanned : Source × Option Cursor) (level o : Nat) (rest : List UInt8) :
    Prop :=
  ∃ source, scanned = (source, some ⟨o + (Utf8.encode v.chars).length, rest⟩) ∧
    source.Says level v

/-- The text of null says null. -/
lemma scanScalar_null :
    ScansTo .null (scanScalar ⟨o, Utf8.encode Json.null.chars ++ rest⟩) level o rest :=
  ⟨_, rfl, .null o (o + 4)⟩

/-- The text of a truth value says it. -/
lemma scanScalar_bool (b : Bool) :
    ScansTo (.bool b) (scanScalar ⟨o, Utf8.encode (Json.bool b).chars ++ rest⟩) level o rest := by
  cases b with
  | true => exact ⟨_, rfl, .bool o true (o + 4)⟩
  | false => exact ⟨_, rfl, .bool o false (o + 5)⟩

/-- The bytes of a string between quotes. -/
lemma encode_quote (s : String) :
    Utf8.encode (quote s) =
      Byte.quote :: (Utf8.encode (s.toList.flatMap escape) ++ [Byte.quote]) := by
  rw [quote, ← List.singleton_append, Utf8.encode_append, Utf8.encode_append]
  rfl

/-- The length of a string between quotes. -/
lemma length_encode_quote (s : String) (o : Nat) :
    o + (Utf8.encode (quote s)).length =
      o + 1 + (Utf8.encode (s.toList.flatMap escape)).length + 1 := by
  rw [encode_quote, List.length_cons, List.length_append, List.length_singleton]
  omega

/-- The text of a string says it. -/
lemma scanScalar_str (s : String) :
    ScansTo (.str s) (scanScalar ⟨o, Utf8.encode (Json.str s).chars ++ rest⟩) level o rest := by
  have hbytes : Utf8.encode (Json.str s).chars ++ rest =
      Byte.quote :: (Utf8.encode (s.toList.flatMap escape) ++ Byte.quote :: rest) := by
    rw [chars, encode_quote, List.cons_append, List.append_assoc, List.singleton_append]
  have hstop : o + 1 + (Utf8.encode (s.toList.flatMap escape)).length + 1 =
      o + (Utf8.encode (Json.str s).chars).length := by
    rw [chars, encode_quote, List.length_cons, List.length_append, List.length_singleton]
    omega
  rw [hbytes, scanScalar]
  simp only [if_true, Quoted.skip_escaped, Quoted.scan_escaped, hstop]
  exact ⟨_, rfl, .str o s _⟩

/-- The text of a number says it. -/
lemma scanScalar_num {n : Number} (hn : n.Spelled) (hrest : Ends rest) :
    ScansTo (.num n) (scanScalar ⟨o, Utf8.encode (Json.num n).chars ++ rest⟩) level o rest := by
  obtain ⟨numeral, hwell, hspelling, hvalue⟩ := hn
  obtain ⟨offset, hscan⟩ := Numeral.scan_spelling hwell hrest.stops o
  obtain ⟨b, more, hcons, hb⟩ := Numeral.exists_spelling_eq_cons hwell
  obtain ⟨-, -, -, hquote⟩ := IntegerLiteral.first_ne hb
  rw [chars, ← hspelling]
  rw [hcons, List.cons_append] at hscan ⊢
  have hread := ((numeral.withExponentAt offset).value_eq_ok_iff (o + (b :: more).length)).2
    ((numeral.standsFor_withExponentAt offset).2 hvalue)
  simp only [scanScalar, if_neg hquote, if_pos hb, hscan, hread]
  exact ⟨_, by rw [chars, ← hspelling, hcons], .num o n _⟩

/-! ## Scanning arrays and objects -/

/-- A value is written with a byte that is neither a blank nor a closing bracket at its front. -/
lemma begins_encode_chars {v : Json} (hv : v.Spelled) : Begins (Utf8.encode v.chars) := by
  cases v with
  | null => exact ⟨_, _, rfl, by decide, by decide⟩
  | bool b => cases b <;> exact ⟨_, _, rfl, by decide, by decide⟩
  | num n =>
    obtain ⟨numeral, hwell, hspelling, -⟩ := hv
    obtain ⟨b, more, hcons, hb⟩ := Numeral.exists_spelling_eq_cons hwell
    refine ⟨b, more, by rw [chars, ← hspelling, hcons], (IntegerLiteral.first_ne hb).1, ?_⟩
    rintro rfl
    obtain h | h := hb <;> cases h
  | str s => exact ⟨Byte.quote, _, encode_quote s, by decide, by decide⟩
  | arr items => exact ⟨Byte.openBracket, _, rfl, by decide, by decide⟩
  | obj entries => exact ⟨Byte.openBrace, _, rfl, by decide, by decide⟩

/-- The text of a value is scanned to its end, wherever it stands. -/
def Scans (v : Json) : Prop :=
  ∀ fuel level o rest, 2 * (Utf8.encode v.chars).length ≤ fuel → Ends rest →
    ScansTo v (scanValue fuel level ⟨o, Utf8.encode v.chars ++ rest⟩) level o rest

/-- A comma stands behind a value. -/
lemma ends_comma (rest : List UInt8) : Ends (Byte.comma :: rest) := by
  rintro b ⟨⟩
  exact .inl rfl

/-- Nothing may stand behind a value. -/
lemma ends_nil : Ends [] := fun _ h => absurd h.symm (Option.some_ne_none _)

/-- A closing bracket stands behind a value. -/
lemma ends_closeBracket (rest : List UInt8) : Ends (Byte.closeBracket :: rest) := by
  rintro b ⟨⟩
  exact .inr (.inl rfl)

/-- A closing brace stands behind a value. -/
lemma ends_closeBrace (rest : List UInt8) : Ends (Byte.closeBrace :: rest) := by
  rintro b ⟨⟩
  exact .inr (.inr rfl)

/-- The bytes of some items: those of the first one, and behind a comma those of the others. -/
lemma encode_itemChars_cons (v w : Json) (items : List Json) :
    Utf8.encode (commaSeparated (itemChars (v :: w :: items))) =
      Utf8.encode v.chars ++
        Byte.comma :: Utf8.encode (commaSeparated (itemChars (w :: items))) := by
  simp only [itemChars, commaSeparated, Utf8.encode_append]
  rfl

section Items

variable {v : Json} {node : Source} {fuel : Nat} {comma : Bool} {text : List UInt8} {stop : Nat}

/-- The last item of an array is scanned, and the closing bracket behind it. -/
lemma scanItems_last (hb : Begins text)
    (h : scanValue fuel level ⟨o, text ++ Byte.closeBracket :: rest⟩ =
      (node, some ⟨stop, Byte.closeBracket :: rest⟩)) :
    scanItems (fuel + 1) level comma ⟨o, text ++ Byte.closeBracket :: rest⟩ =
      (.item node (Cursor.leaveItem ⟨stop, Byte.closeBracket :: rest⟩) (.close stop),
        some ⟨stop + 1, rest⟩) := by
  have hcomma : Byte.closeBracket ≠ Byte.comma := by decide
  obtain ⟨b, more, rfl, hblank, hclose⟩ := hb
  rw [List.cons_append] at h ⊢
  rw [scanItems, Cursor.skipBlanks_cons hblank]
  simp only [if_neg hclose, h, Cursor.skipBlanks_of_ends (ends_closeBracket rest), if_neg hcomma,
    if_true]

/-- An item of an array is scanned, and what stands behind the comma. -/
lemma scanItems_more (hb : Begins text)
    (h : scanValue fuel level ⟨o, text ++ Byte.comma :: rest⟩ =
      (node, some ⟨stop, Byte.comma :: rest⟩)) :
    scanItems (fuel + 1) level comma ⟨o, text ++ Byte.comma :: rest⟩ =
      (.item node (Cursor.leaveItem ⟨stop, Byte.comma :: rest⟩)
          (scanItems fuel level true ⟨stop + 1, rest⟩).1,
        (scanItems fuel level true ⟨stop + 1, rest⟩).2) := by
  obtain ⟨b, more, rfl, hblank, hclose⟩ := hb
  rw [List.cons_append] at h ⊢
  rw [scanItems, Cursor.skipBlanks_cons hblank]
  simp only [if_neg hclose, h, Cursor.skipBlanks_of_ends (ends_comma rest), if_true]

end Items

/-- **The text of some items**, up to the closing bracket, is scanned and says them.

**Proof sketch.** Induction on the items.  Each is scanned up to the comma or the closing bracket
behind it. -/
theorem scanItems_compact (level : Nat) (rest : List UInt8) {items : List Json}
    (hall : ∀ v ∈ items, v.Spelled ∧ Scans v) :
    ∀ fuel o comma, 2 * ((Utf8.encode (commaSeparated (itemChars items))).length + 1) ≤ fuel →
      (items = [] → comma = false) →
      ∃ nodes, scanItems fuel level comma
          ⟨o, Utf8.encode (commaSeparated (itemChars items)) ++ Byte.closeBracket :: rest⟩ =
            (nodes, some ⟨o + (Utf8.encode (commaSeparated (itemChars items))).length + 1, rest⟩) ∧
        ItemsSay level nodes items := by
  induction items with
  | nil =>
    intro fuel o comma hfuel hcomma
    obtain ⟨fuel, rfl⟩ := Nat.exists_eq_add_of_le' (show 1 ≤ fuel by omega)
    obtain rfl := hcomma rfl
    refine ⟨.close o, ?_, .close o⟩
    rw [scanItems]
    rfl
  | cons v items ih =>
    intro fuel o comma hfuel _
    obtain ⟨fuel, rfl⟩ := Nat.exists_eq_add_of_le' (show 1 ≤ fuel by omega)
    obtain ⟨⟨hspelled, hscans⟩, hrest⟩ := List.forall_mem_cons.1 hall
    have hb := begins_encode_chars hspelled
    cases items with
    | nil =>
      have hbytes : Utf8.encode (commaSeparated (itemChars [v])) = Utf8.encode v.chars := rfl
      rw [hbytes] at hfuel ⊢
      obtain ⟨node, hnode, hsays⟩ := hscans fuel level o _ (by omega) (ends_closeBracket rest)
      exact ⟨_, scanItems_last hb hnode, .item _ hsays (.close _)⟩
    | cons w items =>
      rw [encode_itemChars_cons] at hfuel ⊢
      simp only [List.length_append, List.length_cons] at hfuel ⊢
      obtain ⟨nodes, hnodes, hsay⟩ := ih hrest fuel (o + (Utf8.encode v.chars).length + 1) true
        (by omega) fun h => absurd h (List.cons_ne_nil _ _)
      obtain ⟨node, hnode, hsays⟩ := hscans fuel level o _ (by omega) (ends_comma _)
      rw [List.append_assoc, List.cons_append, scanItems_more hb hnode, hnodes]
      refine ⟨_, Prod.ext rfl ?_, .item _ hsays hsay⟩
      simp only [Option.some.injEq, Cursor.mk.injEq, and_true]
      omega

/-- The bytes of a key and the colon behind it, from its opening quote. -/
lemma encode_entry (k : String) (v : Json) :
    Utf8.encode (quote k ++ ':' :: v.chars) =
      Utf8.encode (quote k) ++ Byte.colon :: Utf8.encode v.chars := by
  rw [Utf8.encode_append]
  rfl

/-- The bytes of some entries: those of the first one, and behind a comma those of the others. -/
lemma encode_entryChars_cons (k : String) (v : Json) (e : String × Json)
    (entries : List (String × Json)) :
    Utf8.encode (commaSeparated (entryChars ((k, v) :: e :: entries))) =
      Utf8.encode (quote k) ++ Byte.colon :: (Utf8.encode v.chars ++
        Byte.comma :: Utf8.encode (commaSeparated (entryChars (e :: entries)))) := by
  rw [entryChars, entryChars, commaSeparated, Utf8.encode_append, encode_entry, List.append_assoc,
    List.cons_append]
  rfl

section Entries

variable {v : Json} {node : Source} {fuel : Nat} {comma : Bool} {text : List UInt8} {stop : Nat}

/-- The key that a text gives when it stands at an offset, before the given bytes. -/
def keyAt (k : String) (o : Nat) (rest : List UInt8) : Key :=
  ⟨.ok k, o + (Utf8.encode (quote k)).length,
    Cursor.leave Byte.closeBrace ⟨o + (Utf8.encode (quote k)).length, rest⟩⟩

/-- A colon is no blank. -/
lemma isBlank_colon : Byte.isBlank Byte.colon = false := rfl

/-- The last entry of an object is scanned, and the closing brace behind it. -/
lemma scanEntries_last {k : String}
    (h : scanValue fuel level ⟨o + (Utf8.encode (quote k)).length + 1,
      text ++ Byte.closeBrace :: rest⟩ = (node, some ⟨stop, Byte.closeBrace :: rest⟩)) :
    scanEntries (fuel + 1) level comma
        ⟨o, Utf8.encode (quote k) ++ Byte.colon :: (text ++ Byte.closeBrace :: rest)⟩ =
      (.entry (keyAt k o (Byte.colon :: (text ++ Byte.closeBrace :: rest))) node
          (Cursor.leave Byte.closeBrace ⟨stop, Byte.closeBrace :: rest⟩) (.close stop),
        some ⟨stop + 1, rest⟩) := by
  have hquote : Byte.quote ≠ Byte.closeBrace := by decide
  have hcomma : Byte.closeBrace ≠ Byte.comma := by decide
  rw [length_encode_quote] at h
  rw [keyAt, length_encode_quote, encode_quote, List.cons_append, List.append_assoc,
    List.singleton_append, scanEntries, Cursor.skipBlanks_cons (by decide)]
  simp only [if_neg hquote, if_true, Quoted.skip_escaped, Quoted.scan_escaped, Except.map,
    Cursor.skipBlanks_cons isBlank_colon, h, Cursor.skipBlanks_of_ends (ends_closeBrace rest),
    if_neg hcomma]

/-- An entry of an object is scanned, and what stands behind the comma. -/
lemma scanEntries_more {k : String}
    (h : scanValue fuel level ⟨o + (Utf8.encode (quote k)).length + 1, text ++ Byte.comma :: rest⟩ =
      (node, some ⟨stop, Byte.comma :: rest⟩)) :
    scanEntries (fuel + 1) level comma
        ⟨o, Utf8.encode (quote k) ++ Byte.colon :: (text ++ Byte.comma :: rest)⟩ =
      (.entry (keyAt k o (Byte.colon :: (text ++ Byte.comma :: rest))) node
          (Cursor.leave Byte.closeBrace ⟨stop, Byte.comma :: rest⟩)
          (scanEntries fuel level true ⟨stop + 1, rest⟩).1,
        (scanEntries fuel level true ⟨stop + 1, rest⟩).2) := by
  have hquote : Byte.quote ≠ Byte.closeBrace := by decide
  rw [length_encode_quote] at h
  rw [keyAt, length_encode_quote, encode_quote, List.cons_append, List.append_assoc,
    List.singleton_append, scanEntries, Cursor.skipBlanks_cons (by decide)]
  simp only [if_neg hquote, if_true, Quoted.skip_escaped, Quoted.scan_escaped, Except.map,
    Cursor.skipBlanks_cons isBlank_colon, h, Cursor.skipBlanks_of_ends (ends_comma rest)]

end Entries

/-- **The text of some entries**, up to the closing brace, is scanned and says them.

**Proof sketch.** Induction on the entries.  Behind the key and the colon, the value is scanned up
to the comma or the closing brace. -/
theorem scanEntries_compact (level : Nat) (rest : List UInt8) {entries : List (String × Json)}
    (hall : ∀ e ∈ entries, Scans e.2) :
    ∀ fuel o comma, 2 * ((Utf8.encode (commaSeparated (entryChars entries))).length + 1) ≤ fuel →
      (entries = [] → comma = false) →
      ∃ nodes, scanEntries fuel level comma
          ⟨o, Utf8.encode (commaSeparated (entryChars entries)) ++ Byte.closeBrace :: rest⟩ =
            (nodes,
              some ⟨o + (Utf8.encode (commaSeparated (entryChars entries))).length + 1, rest⟩) ∧
        EntriesSay level nodes entries := by
  induction entries with
  | nil =>
    intro fuel o comma hfuel hcomma
    obtain ⟨fuel, rfl⟩ := Nat.exists_eq_add_of_le' (show 1 ≤ fuel by omega)
    obtain rfl := hcomma rfl
    refine ⟨.close o, ?_, .close o⟩
    rw [scanEntries]
    rfl
  | cons e entries ih =>
    intro fuel o comma hfuel _
    obtain ⟨k, v⟩ := e
    obtain ⟨fuel, rfl⟩ := Nat.exists_eq_add_of_le' (show 1 ≤ fuel by omega)
    obtain ⟨(hscans : Scans v), hrest⟩ := List.forall_mem_cons.1 hall
    cases entries with
    | nil =>
      have hbytes : Utf8.encode (commaSeparated (entryChars [(k, v)])) =
          Utf8.encode (quote k) ++ Byte.colon :: Utf8.encode v.chars := encode_entry k v
      rw [hbytes] at hfuel ⊢
      simp only [List.length_append, List.length_cons] at hfuel ⊢
      obtain ⟨node, hnode, hsays⟩ := hscans fuel level _ _ (by omega) (ends_closeBrace rest)
      rw [List.append_assoc, List.cons_append, scanEntries_last hnode]
      refine ⟨_, Prod.ext rfl ?_, .entry _ rfl hsays (.close _)⟩
      simp only [Option.some.injEq, Cursor.mk.injEq, and_true]
      omega
    | cons e entries =>
      rw [encode_entryChars_cons] at hfuel ⊢
      simp only [List.length_append, List.length_cons] at hfuel ⊢
      obtain ⟨nodes, hnodes, hsay⟩ := ih hrest fuel
        (o + (Utf8.encode (quote k)).length + 1 + (Utf8.encode v.chars).length + 1) true
        (by omega) fun h => absurd h (List.cons_ne_nil _ _)
      obtain ⟨node, hnode, hsays⟩ := hscans fuel level _ _ (by omega) (ends_comma _)
      rw [List.append_assoc, List.cons_append, List.append_assoc, List.cons_append,
        scanEntries_more hnode, hnodes]
      refine ⟨_, Prod.ext rfl ?_, .entry _ rfl hsays hsay⟩
      simp only [Option.some.injEq, Cursor.mk.injEq, and_true]
      omega

/-! ## Scanning trees -/

/-- A value that does not begin with a bracket is scanned as one without parts. -/
lemma scans_of_scanScalar {v : Json} {b : UInt8} {more : List UInt8}
    (hcons : Utf8.encode v.chars = b :: more) (hblank : Byte.isBlank b = false)
    (hbracket : b ≠ Byte.openBracket) (hbrace : b ≠ Byte.openBrace)
    (h : ∀ level o rest, Ends rest →
      ScansTo v (scanScalar ⟨o, Utf8.encode v.chars ++ rest⟩) level o rest) : Scans v := by
  intro fuel level o rest hfuel hrest
  have hscan := h level o rest hrest
  rw [hcons, List.length_cons] at hfuel
  obtain ⟨fuel, rfl⟩ := Nat.exists_eq_add_of_le' (show 1 ≤ fuel by omega)
  rw [hcons, List.cons_append] at hscan ⊢
  rw [scanValue, Cursor.skipBlanks_cons hblank]
  simpa only [if_neg hbracket, if_neg hbrace] using hscan

/-- The text of an array is scanned if that of each item is. -/
lemma scans_arr {items : List Json} (hall : ∀ v ∈ items, v.Spelled ∧ Scans v) :
    Scans (.arr items) := by
  intro fuel level o rest hfuel _
  have hbytes : Utf8.encode (arr items).chars = Byte.openBracket ::
      (Utf8.encode (commaSeparated (itemChars items)) ++ [Byte.closeBracket]) := by
    rw [chars, ← List.singleton_append, Utf8.encode_append, Utf8.encode_append]
    rfl
  rw [hbytes, List.length_cons, List.length_append, List.length_singleton] at hfuel
  obtain ⟨fuel, rfl⟩ := Nat.exists_eq_add_of_le' (show 1 ≤ fuel by omega)
  obtain ⟨nodes, hnodes, hsay⟩ := scanItems_compact (level + 1) rest hall fuel (o + 1) false
    (by omega) fun _ => rfl
  rw [ScansTo, hbytes, List.cons_append, List.append_assoc, List.singleton_append, scanValue,
    Cursor.skipBlanks_cons (by decide)]
  simp only [if_true, hnodes, List.length_cons, List.length_append, List.length_nil]
  refine ⟨_, Prod.ext rfl ?_, .arr o hsay⟩
  simp only [Option.some.injEq, Cursor.mk.injEq, and_true]
  omega

/-- The text of an object is scanned if that of each value is. -/
lemma scans_obj {entries : List (String × Json)} (hall : ∀ e ∈ entries, Scans e.2) :
    Scans (.obj entries) := by
  intro fuel level o rest hfuel _
  have hbytes : Utf8.encode (obj entries).chars = Byte.openBrace ::
      (Utf8.encode (commaSeparated (entryChars entries)) ++ [Byte.closeBrace]) := by
    rw [chars, ← List.singleton_append, Utf8.encode_append, Utf8.encode_append]
    rfl
  have hne : Byte.openBrace ≠ Byte.openBracket := by decide
  rw [hbytes, List.length_cons, List.length_append, List.length_singleton] at hfuel
  obtain ⟨fuel, rfl⟩ := Nat.exists_eq_add_of_le' (show 1 ≤ fuel by omega)
  obtain ⟨nodes, hnodes, hsay⟩ := scanEntries_compact (level + 1) rest hall fuel (o + 1) false
    (by omega) fun _ => rfl
  rw [ScansTo, hbytes, List.cons_append, List.append_assoc, List.singleton_append, scanValue,
    Cursor.skipBlanks_cons (by decide)]
  simp only [if_neg hne, if_true, hnodes, List.length_cons, List.length_append, List.length_nil]
  refine ⟨_, Prod.ext rfl ?_, .obj o hsay⟩
  simp only [Option.some.injEq, Cursor.mk.injEq, and_true]
  omega

/-- **The text of a tree** is scanned to its end and says the tree, wherever it stands.

**Proof sketch.** Induction on the tree.  The inside of an array or object is scanned part by part
(`scanItems_compact`, `scanEntries_compact`). -/
theorem scans_of_spelled {v : Json} (hv : v.Spelled) : Scans v := by
  induction v using Json.induction with
  | null => exact scans_of_scanScalar rfl rfl (by decide) (by decide) fun _ _ _ _ => scanScalar_null
  | bool b =>
    cases b <;> exact scans_of_scanScalar rfl rfl (by decide) (by decide)
      fun _ _ _ _ => scanScalar_bool _
  | num n =>
    have hn : n.Spelled := hv
    obtain ⟨numeral, hwell, hspelling, -⟩ := hv
    obtain ⟨b, more, hcons, hb⟩ := Numeral.exists_spelling_eq_cons hwell
    obtain ⟨hblank, hbracket, hbrace, -⟩ := IntegerLiteral.first_ne hb
    rw [hspelling] at hcons
    exact scans_of_scanScalar hcons hblank hbracket hbrace fun _ _ _ => scanScalar_num hn
  | str s =>
    exact scans_of_scanScalar (encode_quote s) rfl (by decide) (by decide)
      fun _ _ _ _ => scanScalar_str s
  | arr items ih =>
    have hitems := itemsSpelled_iff.1 hv
    exact scans_arr fun v hmem => ⟨hitems v hmem, ih v hmem (hitems v hmem)⟩
  | obj entries ih =>
    exact scans_obj fun e hmem => ih e hmem (entriesSpelled_iff.1 hv e hmem)

/-- **The text of a tree says what the tree is**, and nothing stands behind it. -/
theorem exists_scan_compact {v : Json} (hv : v.Spelled) :
    ∃ source, scan (Utf8.bytes v.compact) = (source, none) ∧ source.Says 0 v := by
  have hbytes : Utf8.bytes v.compact = Utf8.encode v.chars := by
    rw [Utf8.bytes, compact, String.toList_ofList]
  obtain ⟨source, hscan, hsays⟩ := scans_of_spelled hv (fuelFor (Utf8.encode v.chars).length) 0 0 []
    (Nat.le_add_right _ _) ends_nil
  rw [List.append_nil] at hscan
  refine ⟨source, ?_, hsays⟩
  rw [hbytes, scan, Cursor.start, hscan]
  rfl

/-! ## The trees of what is said -/

/-- **What a source tree says is its tree**, unless it is nested too deeply or a key is repeated.

**Proof sketch.** Induction on what is said.  Each bracket is opened, and nothing is merged. -/
theorem Says.tree_eq_ok {repeats : Repeats} {source : Source} {v : Json}
    (h : source.Says level v) (hlevel : level + v.nesting ≤ maxLevel)
    (hdistinct : v.distinctKeys = true) : source.tree repeats = .ok v := by
  induction v using Json.induction generalizing source level with
  | null => cases h; rfl
  | bool b => cases h; rfl
  | num n => cases h; rfl
  | str s => cases h; rfl
  | arr items ih =>
    cases h with
    | arr start h =>
      obtain ⟨hc, hall⟩ := h.forall₂
      rw [nesting] at hlevel
      refine tree_array_eq_ok_iff.2 ⟨by omega, hc, items, ?_, rfl⟩
      refine forall₂_imp_of_mem_right hall fun v hv node hsays => ih v hv hsays ?_ ?_
      · have hle := itemsNesting_le_iff.1 le_rfl v hv
        omega
      · exact distinctKeys_arr_iff.1 hdistinct v hv
  | obj entries ih =>
    cases h with
    | @obj _ start nodes _ h =>
      obtain ⟨hc, hall⟩ := h.forall₂
      obtain ⟨hnodup, hvalues⟩ := distinctKeys_obj_iff.1 hdistinct
      rw [nesting] at hlevel
      have hentries : List.Forall₂ (fun (e : String × Source) (p : String × Json) =>
          e.1 = p.1 ∧ e.2.tree repeats = .ok p.2) nodes.toList entries := by
        refine forall₂_imp_of_mem_right hall fun p hp e he =>
          ⟨he.1, ih p hp he.2 ?_ (hvalues p hp)⟩
        have hle := entriesNesting_le_iff.1 le_rfl p hp
        omega
      refine tree_object_eq_ok_iff.2 ⟨by omega, hc, fun _ => ?_, entries, hentries, ?_⟩
      · rw [keys_eq_of_entries hentries]
        exact hnodup
      · rw [putAll_of_nodup hnodup fun _ _ => List.not_mem_nil, List.nil_append]

end Source

/-! ## Reading what has been written -/

variable {v : Json}

/-- A tree that has been written has its own tree in either way of repeating keys, unless it is
nested too deeply or a key is repeated. -/
lemma tree_scan_compact (hv : v.Spelled) (hnesting : v.nesting ≤ Source.maxLevel)
    (hdistinct : v.distinctKeys = true) (repeats : Repeats) :
    (Source.scan (Utf8.bytes v.compact)).1.tree repeats = .ok v ∧
      (Source.scan (Utf8.bytes v.compact)).2 = none := by
  obtain ⟨source, hscan, hsays⟩ := Source.exists_scan_compact hv
  have hlevel : 0 + v.nesting ≤ Source.maxLevel := by rwa [Nat.zero_add]
  rw [hscan]
  exact ⟨Source.Says.tree_eq_ok hsays hlevel hdistinct, rfl⟩

/-- No key is repeated in the text of a tree in which none is. -/
lemma distinctKeys_scan_compact (hv : v.Spelled) (hnesting : v.nesting ≤ Source.maxLevel)
    (hdistinct : v.distinctKeys = true) :
    (Source.scan (Utf8.bytes v.compact)).1.distinctKeys = true :=
  (Source.tree_refused_eq_ok_iff.1 (tree_scan_compact hv hnesting hdistinct .refused).1).2

/-- **A tree is read back from its text**, unless it is nested too deeply or a key is repeated. -/
theorem ofText_compact (hv : v.Spelled) (hnesting : v.nesting ≤ Source.maxLevel)
    (hdistinct : v.distinctKeys = true) : ofText (Utf8.bytes v.compact) = .ok v :=
  ofText_eq_ok_iff.2 (tree_scan_compact hv hnesting hdistinct .lastWins)

/-- **Whatever is read from a tree is read from its text**, unless it is nested too deeply or a key
is repeated.

**Proof sketch.** The text has the tree (`tree_scan_compact`), and nothing is found in the tree that
is not found in the text. -/
theorem decode_compact_of_read (hv : v.Spelled) (hnesting : v.nesting ≤ Source.maxLevel)
    (hdistinct : v.distinctKeys = true) {s : Shape} {x : s.Val} (h : v.read s = .ok x) :
    s.decode (Utf8.bytes v.compact) = .ok x := by
  obtain ⟨hlast, hend⟩ := tree_scan_compact hv hnesting hdistinct .lastWins
  have hkeys := distinctKeys_scan_compact hv hnesting hdistinct
  exact Shape.decode_eq_ok_iff.2
    ⟨Source.read_entailed_of_distinctKeys v hlast hkeys s x h, hend⟩

end Json

end QueryPayload
