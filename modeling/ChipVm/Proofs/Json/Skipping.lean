/-
# Passing over a value takes that value

A value that nobody asks for is passed over with the open brackets in a list.  Whatever value the
grammar derives, and however deeply it is nested, passing over it takes the tokens of that value and
no others: what is left to do behind it is what there was to do before, with a value just ended
(`passed_of_derives`).

The induction is over the derivation, for all brackets that may be open around it.
-/
import ChipVm.Json.Skip
import ChipVm.Proofs.Json.Numerals
import ChipVm.Proofs.Json.Strings

namespace ChipVm.Json

open Grammar

variable {text rest : List Char} {t : Token} {ts : List Token} {place : Place}
  {outer : List Bracket}

/-! ## One token -/

/-- A token that starts a value leads to the same place wherever a value is due. -/
lemma skip_start {next : Place} {inner : List Bracket}
    (hplace : place = .value ∨ place = .listStart)
    (h : startValue outer t = .ok (next, inner)) :
    skip place outer (t :: ts) = skip next inner ts := by
  have hfollow : follow place outer t = .ok (next, inner) := by
    rcases hplace with rfl | rfl
    · rw [← h]
      cases t <;> rfl
    · cases t <;> first | exact h | cases h
  rcases hplace with rfl | rfl <;> rw [skip, hfollow] <;> simp

lemma skip_key {read : Except Flaw String} (hplace : place = .key ∨ place = .objectStart) :
    skip place outer (.text read none :: .colon :: ts) = skip .value outer ts := by
  rcases hplace with rfl | rfl <;> simp [skip, follow, startMember]

/-! ## Values -/

/-- Passing over a derived text comes to its end: a value ends where it ends, and what stands
between brackets ends with the bracket that is open. -/
def Passed : Form → List Char → Prop
  | .value, text => ∀ place outer rest, place = .value ∨ place = .listStart → Stops rest →
      skip place outer (toks (text ++ rest)) = skip .after outer (toks rest)
  | .elements, text => ∀ place outer rest, place = .value ∨ place = .listStart →
      skip place (.list :: outer) (toks (text ++ ']' :: rest)) = skip .after outer (toks rest)
  | .members, text => ∀ place outer rest, place = .key ∨ place = .objectStart →
      skip place (.object :: outer) (toks (text ++ '}' :: rest)) = skip .after outer (toks rest)

section

variable {before value after : List Char}

/-- A value with white space around it. -/
lemma Passed.padded (h : Passed .value value) (hbefore : Blank before) (hafter : Blank after)
    (hplace : place = .value ∨ place = .listStart) (hrest : Stops rest) :
    skip place outer (toks (before ++ value ++ after ++ rest)) = skip .after outer (toks rest) := by
  rw [List.append_assoc, List.append_assoc, toks_blank hbefore,
    h place outer (after ++ rest) hplace (hrest.blank_append hafter), toks_blank hafter]

/-- A member of an object, up to what follows it. -/
lemma Passed.member {name gap gap' : List Char} (h : Passed .value value) (hbefore : Blank before)
    (hname : Quoted name) (hgap : Blank gap) (hgap' : Blank gap') (hafter : Blank after)
    (hplace : place = .key ∨ place = .objectStart) (hrest : Stops rest) :
    skip place outer (toks (before ++ name ++ gap ++ ':' :: gap' ++ value ++ after ++ rest)) =
      skip .after outer (toks rest) := by
  have hassoc : before ++ name ++ gap ++ ':' :: gap' ++ value ++ after ++ rest =
      before ++ (name ++ (gap ++ ':' :: (gap' ++ value ++ after ++ rest))) := by simp
  obtain ⟨read, htoks⟩ : ∃ read, toks (name ++ (gap ++ ':' :: (gap' ++ value ++ after ++ rest))) =
      .text read none :: toks (gap ++ ':' :: (gap' ++ value ++ after ++ rest)) := toks_quoted hname
  rw [hassoc, toks_blank hbefore, htoks, toks_blank hgap, toks_colon, skip_key hplace,
    h.padded hgap' hafter (.inl rfl) hrest]

end

/-- Each production is passed over if its parts are. -/
lemma passed_of_derives {form : Form} (h : Derives form text) : Passed form text := by
  induction h with
  | null =>
    intro place outer rest hplace _
    rw [toks_null, skip_start hplace rfl]
  | boolean h =>
    intro place outer rest hplace _
    rw [toks_boolean h, skip_start hplace rfl]
  | @number text h =>
    intro place outer rest hplace hrest
    obtain ⟨read, htoks⟩ := toks_numeral h hrest
    rw [htoks, skip_start hplace rfl]
  | @string text h =>
    intro place outer rest hplace _
    obtain ⟨read, htoks⟩ : ∃ read, toks (text ++ rest) = .text read none :: toks rest :=
      toks_quoted h
    rw [htoks, skip_start hplace rfl]
  | emptyList h =>
    intro place outer rest hplace _
    rw [List.cons_append, List.append_assoc, toks_openList, skip_start hplace rfl, toks_blank h,
      List.singleton_append, toks_closeList]
    simp [skip, follow]
  | list _ ih =>
    intro place outer rest hplace _
    rw [List.cons_append, List.append_assoc, toks_openList, skip_start hplace rfl]
    exact ih .listStart outer rest (.inr rfl)
  | emptyObject h =>
    intro place outer rest hplace _
    rw [List.cons_append, List.append_assoc, toks_openObject, skip_start hplace rfl, toks_blank h,
      List.singleton_append, toks_closeObject]
    simp [skip, follow]
  | object _ ih =>
    intro place outer rest hplace _
    rw [List.cons_append, List.append_assoc, toks_openObject, skip_start hplace rfl]
    exact ih .objectStart outer rest (.inr rfl)
  | element hbefore _ hafter ih =>
    intro place outer rest hplace
    rw [ih.padded hbefore hafter hplace (stops_cons (by decide) rest), toks_closeList]
    simp [skip, follow, afterValue]
  | elements hbefore _ hafter _ ih ihrest =>
    intro place outer rest hplace
    rw [List.append_assoc _ _ (']' :: rest), List.cons_append,
      ih.padded hbefore hafter hplace (stops_cons (by decide) _), toks_comma]
    rw [← ihrest .value outer rest (.inl rfl)]
    simp [skip, follow, afterValue]
  | member hbefore hname hgap hgap' _ hafter ih =>
    intro place outer rest hplace
    rw [ih.member hbefore hname hgap hgap' hafter hplace (stops_cons (by decide) rest),
      toks_closeObject]
    simp [skip, follow, afterValue]
  | members hbefore hname hgap hgap' _ hafter _ ih ihrest =>
    intro place outer rest hplace
    rw [List.append_assoc _ _ ('}' :: rest), List.cons_append,
      ih.member hbefore hname hgap hgap' hafter hplace (stops_cons (by decide) _), toks_comma]
    rw [← ihrest .key outer rest (.inl rfl)]
    simp [skip, follow, afterValue]

end ChipVm.Json
