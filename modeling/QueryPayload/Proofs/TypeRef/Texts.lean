import Mathlib.Data.List.Basic
import Mathlib.Tactic.Lemma
import QueryPayload.TypeRef.Render

/-!
# The texts of a reference tell which one it is

A reference has two texts, and neither shows where its nodes begin and end.  As long as the names in
it are names of the schema language, this is no loss: the last character of a text tells what the
outermost node is, and what stands before it is the text of the node below.

## Main definitions

* `isIdentifier` — whether a text is a name of the schema language.
* `TypeRef.Standard` — references with such a name beneath every named type, and no other names.
* `TypeRef.Kind.ofClosing` — the node that a text with the given last character stands for.

## Main results

* `TypeRef.render_nonNullType_eq_ok_iff`, `render_listType_eq_ok_iff` — when a wrapper renders.
* `TypeRef.eq_of_sdl_eq`, `eq_of_render_eq` — references with one text are equal.
* `TypeRef.texts_identify` — what both texts tell.
-/

set_option relaxedAutoImplicit false
set_option autoImplicit false

namespace QueryPayload

/-! ## Names -/

/-- The last character of a text. -/
def lastChar? (text : String) : Option Char := text.toList.getLast?

/-- The last character is that of the last part that has one. -/
lemma lastChar?_append (s t : String) : lastChar? (s ++ t) = (lastChar? t).or (lastChar? s) := by
  rw [lastChar?, String.toList_append, List.getLast?_append]
  rfl

/-- Whether a character can stand inside a name: a letter, a digit or an underscore. -/
def isNameChar (c : Char) : Bool := c == '_' || c.isAlphanum

/-- Whether a text is a name of the schema language: name characters, the first of them no digit. -/
def isIdentifier (text : String) : Bool :=
  match text.toList with
  | [] => false
  | c :: cs => (c == '_' || c.isAlpha) && cs.all isNameChar

/-- A name ends in a name character. -/
lemma exists_lastChar?_of_isIdentifier {name : String} (h : isIdentifier name = true) :
    ∃ c, lastChar? name = some c ∧ isNameChar c = true := by
  have hall : name.toList ≠ [] ∧ ∀ c ∈ name.toList, isNameChar c = true := by
    rw [isIdentifier] at h
    cases hname : name.toList with
    | nil =>
      rw [hname] at h
      cases h
    | cons c cs =>
      simp only [hname, Bool.and_eq_true, Bool.or_eq_true, List.all_eq_true] at h
      obtain ⟨hfirst, hrest⟩ := h
      have hc : isNameChar c = true := by
        rw [isNameChar, Char.isAlphanum, Bool.or_eq_true, Bool.or_eq_true]
        exact hfirst.imp_right Or.inl
      exact ⟨List.cons_ne_nil _ _, List.forall_mem_cons.2 ⟨hc, hrest⟩⟩
  obtain ⟨hne, hchars⟩ := hall
  exact ⟨_, List.getLast?_eq_some_getLast hne, hchars _ (List.getLast_mem hne)⟩

namespace TypeRef

/-! ## References to names of the schema language -/

/-- Every named type in a reference is one of a bare name that the schema language admits, and no
bare name stands anywhere else. -/
def Standard : TypeRef → Prop
  | .name _ => False
  | .namedType (.name value) => isIdentifier value = true
  | .namedType _ => False
  | .listType item => item.Standard
  | .nonNullType inner => inner.Standard

/-- What stands beneath a named type. -/
lemma Standard.exists_name {child : TypeRef} (h : (namedType child).Standard) :
    ∃ value, child = .name value ∧ isIdentifier value = true := by
  cases child with
  | name value => exact ⟨value, rfl, h⟩
  | _ => exact h.elim

/-- The outermost node of a reference whose text has the given last character. -/
def Kind.ofClosing (c : Char) : Kind :=
  if c = '!' then .nonNullType else if c = ']' then .listType else .namedType

/-- A text that ends in a name character is that of a named type. -/
lemma Kind.ofClosing_of_isNameChar {c : Char} (h : isNameChar c = true) :
    ofClosing c = .namedType := by
  have hmark : c ≠ '!' := by
    rintro rfl
    exact absurd h (by decide)
  have hbracket : c ≠ ']' := by
    rintro rfl
    exact absurd h (by decide)
  rw [ofClosing, if_neg hmark, if_neg hbracket]

variable {t u item inner : TypeRef} {text : String}

/-! ## The text in the schema language -/

/-- The last character of a text tells the outermost node. -/
lemma Standard.exists_lastChar?_sdl (h : t.Standard) :
    ∃ c, lastChar? t.sdl = some c ∧ Kind.ofClosing c = t.kind := by
  cases t with
  | name value => exact h.elim
  | namedType child =>
    obtain ⟨value, rfl, hvalue⟩ := h.exists_name
    obtain ⟨c, hlast, hc⟩ := exists_lastChar?_of_isIdentifier hvalue
    exact ⟨c, hlast, Kind.ofClosing_of_isNameChar hc⟩
  | listType item => exact ⟨']', by rw [sdl, lastChar?_append]; rfl, rfl⟩
  | nonNullType inner => exact ⟨'!', by rw [sdl, lastChar?_append]; rfl, rfl⟩

/-- A reference admits null exactly if its text does not end in `!`. -/
lemma Standard.nullable_iff_sdl (h : t.Standard) :
    t.nullable = true ↔ lastChar? t.sdl ≠ some '!' := by
  obtain ⟨c, hlast, hkind⟩ := h.exists_lastChar?_sdl
  rw [hlast, Ne, Option.some.injEq]
  constructor
  · rintro hnull rfl
    cases t with
    | nonNullType inner => cases hnull
    | _ => cases hkind
  · intro hc
    cases t with
    | nonNullType inner =>
      rw [Kind.ofClosing, if_neg hc] at hkind
      split at hkind <;> cases hkind
    | _ => rfl

/-- References with one text in the schema language have the same outermost node. -/
lemma Standard.kind_eq_of_sdl_eq (ht : t.Standard) (hu : u.Standard) (h : t.sdl = u.sdl) :
    t.kind = u.kind := by
  obtain ⟨c, hc, htkind⟩ := ht.exists_lastChar?_sdl
  obtain ⟨c', hc', hukind⟩ := hu.exists_lastChar?_sdl
  rw [h, hc', Option.some.injEq] at hc
  rw [← htkind, ← hukind, hc]

/-- **References with one text in the schema language are equal.**

**Proof sketch.** Induction on the first reference.  The second one has the same outermost node
(`Standard.kind_eq_of_sdl_eq`), and without the characters that this node adds the texts are still
equal. -/
theorem eq_of_sdl_eq (ht : t.Standard) (hu : u.Standard) (h : t.sdl = u.sdl) : t = u := by
  induction t generalizing u with
  | name value => exact ht.elim
  | namedType child _ =>
    cases u with
    | namedType child' =>
      obtain ⟨value, rfl, -⟩ := ht.exists_name
      obtain ⟨value', rfl, -⟩ := hu.exists_name
      exact congrArg named h
    | _ => cases ht.kind_eq_of_sdl_eq hu h
  | listType item ih =>
    cases u with
    | listType item' =>
      rw [sdl, sdl, String.append_left_inj, String.append_right_inj] at h
      exact congrArg listType (ih ht hu h)
    | _ => cases ht.kind_eq_of_sdl_eq hu h
  | nonNullType inner ih =>
    cases u with
    | nonNullType inner' =>
      rw [sdl, sdl, String.append_left_inj] at h
      exact congrArg nonNullType (ih ht hu h)
    | _ => cases ht.kind_eq_of_sdl_eq hu h

/-! ## The rendering -/

/-- A text has a `?` to drop if it is another one with a `?` behind. -/
lemma dropNullMark?_eq_some_iff {bare : String} :
    dropNullMark? text = some bare ↔ text = bare ++ "?" := by
  rw [dropNullMark?]
  constructor
  · intro h
    split at h
    · rename_i hlast
      obtain rfl := Option.some.inj h
      rw [← String.toList_inj, String.toList_append, String.toList_ofList]
      exact (List.dropLast_append_getLast? _ hlast).symm
    · cases h
  · rintro rfl
    simp

/-- A list renders as its item does, in brackets and with a `?` behind. -/
lemma render_listType_eq_ok_iff :
    (listType item).render = .ok text ↔
      ∃ rendered, item.render = .ok rendered ∧ text = "[" ++ rendered ++ "]" ++ "?" := by
  have hassoc : ∀ rendered : String, "[" ++ rendered ++ "]?" = "[" ++ rendered ++ "]" ++ "?" := by
    intro rendered
    rw [← String.toList_inj]
    simp
  simp only [render, ← hassoc]
  cases item.render with
  | error e => simp
  | ok rendered => simp [eq_comm]

/-- A non-null reference renders as what it wraps does, without the `?` behind. -/
lemma render_nonNullType_eq_ok_iff :
    (nonNullType inner).render = .ok text ↔ inner.render = .ok (text ++ "?") := by
  rw [render]
  cases inner.render with
  | error e => simp
  | ok rendered =>
    rw [Except.ok.injEq, ← dropNullMark?_eq_some_iff]
    cases hdrop : dropNullMark? rendered <;> simp [hdrop]

/-- What admits null renders as a text with a `?` behind, whose own last character tells the
outermost node and is no `?`. -/
lemma Standard.exists_bare (ht : t.Standard) (hnull : t.nullable = true) (h : t.render = .ok text) :
    ∃ bare c, text = bare ++ "?" ∧ lastChar? bare = some c ∧ c ≠ '?' ∧
      Kind.ofClosing c = t.kind := by
  cases t with
  | name value => exact ht.elim
  | namedType child =>
    obtain ⟨value, rfl, hvalue⟩ := ht.exists_name
    obtain ⟨c, hlast, hc⟩ := exists_lastChar?_of_isIdentifier hvalue
    refine ⟨value, c, (Except.ok.inj h).symm, hlast, ?_, Kind.ofClosing_of_isNameChar hc⟩
    rintro rfl
    exact absurd hc (by decide)
  | listType item =>
    obtain ⟨rendered, -, rfl⟩ := render_listType_eq_ok_iff.1 h
    exact ⟨_, ']', rfl, by rw [lastChar?_append]; rfl, by decide, rfl⟩
  | nonNullType inner => cases hnull

/-- **A rendering ends in `?`** exactly if the reference admits null.

**Proof sketch.** Induction on the reference.  What a non-null reference wraps renders with a `?`
behind, so that it admits null itself; without the `?` its rendering does not end in another one
(`Standard.exists_bare`). -/
theorem Standard.lastChar?_render_iff (ht : t.Standard) (h : t.render = .ok text) :
    lastChar? text = some '?' ↔ t.nullable = true := by
  constructor
  · intro hlast
    induction t generalizing text with
    | nonNullType inner ih =>
      have hinner := render_nonNullType_eq_ok_iff.1 h
      have hnull : inner.nullable = true := ih ht hinner (by rw [lastChar?_append]; rfl)
      obtain ⟨bare, c, hbare, hc, hne, -⟩ := Standard.exists_bare (t := inner) ht hnull hinner
      obtain rfl : text = bare := (String.append_left_inj _).1 hbare
      rw [hlast, Option.some.injEq] at hc
      exact absurd hc.symm hne
    | _ => rfl
  · intro hnull
    obtain ⟨bare, c, rfl, -⟩ := ht.exists_bare hnull h
    rw [lastChar?_append]
    rfl

/-- If a reference admits null, then others that render alike have the same outermost node. -/
lemma Standard.kind_eq_of_render_eq (ht : t.Standard) (hu : u.Standard) (hnull : t.nullable = true)
    (h : t.render = .ok text) (h' : u.render = .ok text) : t.kind = u.kind := by
  have hnull' : u.nullable = true :=
    (hu.lastChar?_render_iff h').1 ((ht.lastChar?_render_iff h).2 hnull)
  obtain ⟨bare, c, rfl, hc, -, htkind⟩ := ht.exists_bare hnull h
  obtain ⟨bare', c', hbare, hc', -, hukind⟩ := hu.exists_bare hnull' h'
  obtain rfl : bare = bare' := (String.append_left_inj _).1 hbare
  rw [hc', Option.some.injEq] at hc
  rw [← htkind, ← hukind, hc]

/-- **References with one rendering are equal.**

**Proof sketch.** Induction on the first reference.  If one of the two admits null, then they have
the same outermost node (`Standard.kind_eq_of_render_eq`), and otherwise both are non-null; what is
below renders alike. -/
theorem eq_of_render_eq (ht : t.Standard) (hu : u.Standard) (h : t.render = .ok text)
    (h' : u.render = .ok text) : t = u := by
  induction t generalizing u text with
  | name value => exact ht.elim
  | namedType child _ =>
    cases u with
    | namedType child' =>
      obtain ⟨value, rfl, -⟩ := ht.exists_name
      obtain ⟨value', rfl, -⟩ := hu.exists_name
      have hvalue : value ++ "?" = value' ++ "?" := Except.ok.inj (h.trans h'.symm)
      exact congrArg named ((String.append_left_inj _).1 hvalue)
    | _ => cases ht.kind_eq_of_render_eq hu rfl h h'
  | listType item ih =>
    cases u with
    | listType item' =>
      obtain ⟨rendered, hitem, rfl⟩ := render_listType_eq_ok_iff.1 h
      obtain ⟨rendered', hitem', heq⟩ := render_listType_eq_ok_iff.1 h'
      rw [String.append_left_inj, String.append_left_inj, String.append_right_inj] at heq
      exact congrArg listType (ih ht hu hitem (heq ▸ hitem'))
    | _ => cases ht.kind_eq_of_render_eq hu rfl h h'
  | nonNullType inner ih =>
    cases u with
    | nonNullType inner' =>
      have hinner := render_nonNullType_eq_ok_iff.1 h
      exact congrArg nonNullType (ih ht hu hinner (render_nonNullType_eq_ok_iff.1 h'))
    | _ => cases hu.kind_eq_of_render_eq ht rfl h' h

/-- **The texts of a reference tell which one it is**, if its names are those of the schema
language: two references that render alike are equal, and so are two whose texts in the schema
language are, whether or not they render.  If a reference renders, then its rendering ends in `?`
exactly if the reference admits null, which is so exactly if its text in the schema language does
not end in `!`.

**Proof sketch.** `eq_of_render_eq`, `eq_of_sdl_eq`, `Standard.lastChar?_render_iff` and
`Standard.nullable_iff_sdl`. -/
theorem texts_identify :
    (∀ (t u : TypeRef) (text : String), t.Standard → u.Standard →
      t.render = .ok text → u.render = .ok text → t = u) ∧
    (∀ t u : TypeRef, t.Standard → u.Standard → t.sdl = u.sdl → t = u) ∧
    ∀ (t : TypeRef) (text : String), t.Standard → t.render = .ok text →
      (lastChar? text = some '?' ↔ t.nullable = true) ∧
        (t.nullable = true ↔ lastChar? t.sdl ≠ some '!') :=
  ⟨fun _ _ _ ht hu h h' => eq_of_render_eq ht hu h h', fun _ _ ht hu h => eq_of_sdl_eq ht hu h,
    fun _ _ ht h => ⟨ht.lastChar?_render_iff h, ht.nullable_iff_sdl⟩⟩

/-- `texts_identify` at a list that admits null neither outside nor inside, and at a reference that
does not render. -/
theorem texts_identify_characters :
    (nonNullList (nonNullNamed "Character")).Standard ∧
      (nonNullList (nonNullNamed "Character")).render = .ok "[Character]" ∧
      (nonNullList (nonNullNamed "Character")).sdl = "[Character!]!" ∧
      (∀ u : TypeRef, u.Standard → u.render = .ok "[Character]" →
        nonNullList (nonNullNamed "Character") = u) ∧
      (∀ u : TypeRef, u.Standard → (nonNull (nonNullNamed "Character")).sdl = u.sdl →
        nonNull (nonNullNamed "Character") = u) ∧
      lastChar? "[Character]" ≠ some '?' := by
  have hname : isIdentifier "Character" = true := by decide
  have hrender : (nonNullList (nonNullNamed "Character")).render = .ok "[Character]" := by rfl
  obtain ⟨hrenders, hsdl, hends⟩ := texts_identify
  refine ⟨hname, hrender, by decide, fun u hu h => hrenders _ u _ hname hu hrender h,
    fun u hu h => hsdl _ u hname hu h, fun hlast => ?_⟩
  have hnull := (hends (nonNullList (nonNullNamed "Character")) _ hname hrender).1.1 hlast
  cases hnull

end TypeRef

end QueryPayload
