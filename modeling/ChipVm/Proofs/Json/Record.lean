/-
# Reading objects by their members

What reading an object into a record comes to, in terms of its members alone.  A member is written
in some way, and reading it comes to a change of the record, or to the name of a field that was
given twice further inside (`Conveys`).  Reading the whole object then comes to `collect`: one
member after the other changes the record, until the name of a field turns up again
(`yields_readRecord`).

`collect` fails with a field that was given twice (`collect_error`), and if it does not fail then no
field was (`collect_ok`), so the order of the members does not matter (`get_foldl`).
-/
import Mathlib.Data.List.Duplicate
import ChipVm.Json.Record
import ChipVm.Proofs.Json.Skipping

namespace ChipVm.Json

open Grammar

variable {α β μ : Type} {text rest : List Char} {ts left : List Token}

/-! ## What reading comes to -/

/-- Reading comes to a value with some tokens left, or to the refusal of a field given twice. -/
def ComesTo (result : Except Refusal (α × Rest ts)) (left : List Token) : Except String α → Prop
  | .ok value => ∃ h, result = .ok (value, ⟨left, h⟩)
  | .error name => ∃ refusal, result = .error refusal ∧ refusal.error = .duplicateField name

/-- Reading a text comes to this, whatever may follow the text.  The tokens that are left go under
any description, since a proof that they are fewer stands beside them. -/
def Yields (reader : Reader α) (text : List Char) (outcome : Except String α) : Prop :=
  ∀ rest, Stops rest → ∀ left, toks rest = left →
    ComesTo (reader (toks (text ++ rest))) left outcome

/-! ## Words and numbers -/

lemma yields_readBool {value : Bool} (h : Boolean value text) :
    Yields readBool text (.ok value) := by
  rintro rest _ left rfl
  rw [toks_boolean h]
  exact ⟨_, rfl⟩

lemma yields_readWhole {n bound : Nat} (wanted : String) (h : WholeNumber n text) (hn : n < bound)
    (hbound : bound ≤ UInt64.size) : Yields (readWhole bound wanted) text (.ok n) := by
  rintro rest hrest left rfl
  rw [toks_wholeNumber h (Nat.lt_of_lt_of_le hn hbound) hrest]
  exact ⟨_, if_pos hn⟩

lemma yields_readNullable_null (reader : Reader α) :
    Yields (readNullable reader) ['n', 'u', 'l', 'l'] (.ok none) := by
  rintro rest _ left rfl
  rw [toks_null]
  exact ⟨_, rfl⟩

lemma yields_readNullable_whole {n bound : Nat} (wanted : String) (h : WholeNumber n text)
    (hn : n < bound) (hbound : bound ≤ UInt64.size) :
    Yields (readNullable (readWhole bound wanted)) text (.ok (some n)) := by
  rintro rest hrest left rfl
  have hread := yields_readWhole wanted h hn hbound rest hrest _ rfl
  rw [toks_wholeNumber h (Nat.lt_of_lt_of_le hn hbound) hrest] at hread ⊢
  obtain ⟨hlength, hread⟩ := hread
  exact ⟨hlength, by simp only [readNullable, hread]⟩

/-- Reading into a record comes to a change of the record. -/
lemma Yields.into {reader : Reader β} {outcome : Except String β} (h : Yields reader text outcome)
    (put : β → α → α) : Yields (reader.into put) text (outcome.map put) := by
  intro rest hrest left hleft
  have hread := h rest hrest left hleft
  cases outcome with
  | ok value =>
    obtain ⟨hlength, hread⟩ := hread
    exact ⟨hlength, by rw [Reader.into, hread]⟩
  | error name =>
    obtain ⟨refusal, hread, hname⟩ := hread
    exact ⟨refusal, by rw [Reader.into, hread], hname⟩

/-! ## Members -/

lemma skipValue_of_skip (h : skip .value [] ts = .ok left) :
    ∃ hlength, skipValue ts = .ok ((), ⟨left, hlength⟩) := by
  cases ts with
  | nil => cases h
  | cons t ts =>
    rw [skip] at h
    · cases hfollow : follow .value [] t with
      | error objection => simp [hfollow] at h
      | ok next =>
        simp only [hfollow] at h
        refine ⟨Nat.lt_succ_of_le (length_of_skip h), ?_⟩
        simp only [skipValue, hfollow]
        split
        · rename_i hskip
          rw [h] at hskip
          cases hskip
        · rename_i hskip
          rw [h] at hskip
          cases hskip
          rfl
    · simp

/-- Whatever value stands there is passed over. -/
lemma yields_skipValue (h : Derives .value text) : Yields skipValue text (.ok ()) := by
  rintro rest hrest left rfl
  refine skipValue_of_skip ?_
  rw [passed_of_derives h .value [] rest (.inl rfl) hrest, skip]

/-- What a member of an object comes to, where the fields of a record are asked for: a change of the
record if the name is that of a field, and nothing if it is any other and a value follows. -/
inductive Conveys (fields : List (Field α)) (name : String) (text : List Char) :
    Except String (α → α) → Prop where
  | field {field : Field α} {outcome : Except String (α → α)}
      (hfield : fields.find? (fun field => field.name == name) = some field)
      (h : Yields field.read text outcome) : Conveys fields name text outcome
  | other (hother : name ∉ fields.map Field.name) (h : Derives .value text) :
      Conveys fields name text (.ok id)

/-- The fields met after a member, where these were met before. -/
def meet (known : List String) (name : String) (met : List String) : List String :=
  if name ∈ known then name :: met else met

lemma mem_meet {known met : List String} {n key : String} :
    n ∈ meet known key met ↔ n ∈ met ∨ n = key ∧ key ∈ known := by
  unfold meet
  split <;> rename_i hknown <;> simp [hknown, or_comm]

lemma Conveys.yields {fields : List (Field α)} {name : String} {outcome : Except String (α → α)}
    (h : Conveys fields name text outcome) (met : List String) :
    Yields (readMember fields met name) text
      (outcome.map fun change => (change, meet (fields.map Field.name) name met)) := by
  intro rest hrest left hleft
  cases h with
  | @field field _ hfield h =>
    have hknown : name ∈ fields.map Field.name := by
      have hname := List.find?_some hfield
      exact List.mem_map.2 ⟨field, List.mem_of_find?_eq_some hfield, eq_of_beq hname⟩
    have hread := h rest hrest left hleft
    rw [meet, if_pos hknown]
    cases outcome with
    | ok change =>
      obtain ⟨hlength, hread⟩ := hread
      exact ⟨hlength, by simp only [readMember, hfield, hread]⟩
    | error repeated =>
      obtain ⟨refusal, hread, hname⟩ := hread
      exact ⟨refusal, by simp only [readMember, hfield, hread], hname⟩
  | other hother h =>
    have hnone : fields.find? (fun field => field.name == name) = none := by
      refine List.find?_eq_none.2 fun field hfield hname => hother ?_
      exact List.mem_map.2 ⟨field, hfield, eq_of_beq hname⟩
    obtain ⟨hlength, hread⟩ := yields_skipValue h rest hrest left hleft
    rw [meet, if_neg hother]
    exact ⟨hlength, by simp only [readMember, hnone, hread]⟩

/-! ## Objects -/

/-- What becomes of a record when one member after the other changes it, where some fields were met
before: a field that is met again ends it, and so does a member that fails. -/
def collect (known : List String) (name : μ → String) (outcome : μ → Except String (α → α)) :
    List String → α → List μ → Except String α
  | _, record, [] => .ok record
  | met, record, member :: members =>
    if name member ∈ met then .error (name member)
    else
      (outcome member).bind fun change =>
        collect known name outcome (meet known (name member) met) (change record) members

section

variable {fields : List (Field α)} {name : μ → String}
  {Writes : List String → μ → List Char → Prop} {outcome : μ → Except String (α → α)}
  {members : List μ} {seen met : List String} {record : α}

/-- Members start with a name. -/
lemma toks_membersOf (h : MembersOf name Writes seen members text) :
    ∃ key after, toks (text ++ rest) = .text (.ok key) none :: after := by
  cases h with
  | last hbefore hkey =>
    simp only [List.append_assoc]
    rw [toks_blank hbefore, toks_named hkey]
    exact ⟨_, _, rfl⟩
  | more hbefore hkey =>
    simp only [List.append_assoc]
    rw [toks_blank hbefore, toks_named hkey]
    exact ⟨_, _, rfl⟩

/-- A member up to its value. -/
lemma toks_member {key : String} {before quoted gap gap' value : List Char} (hbefore : Blank before)
    (hkey : Named key quoted) (hgap : Blank gap) (hgap' : Blank gap') :
    toks (before ++ quoted ++ gap ++ ':' :: gap' ++ value ++ rest) =
      .text (.ok key) none :: .colon :: toks (value ++ rest) := by
  have hassoc : before ++ quoted ++ gap ++ ':' :: gap' ++ value ++ rest =
      before ++ (quoted ++ (gap ++ ':' :: (gap' ++ (value ++ rest)))) := by simp
  rw [hassoc, toks_blank hbefore, toks_named hkey, toks_blank hgap, toks_colon, toks_blank hgap']

variable {key : String}

lemma readMembers_met (h : key ∈ met) :
    readMembers fields met record (.text (.ok key) none :: ts) =
      .error (.misplaced (.duplicateField key) ts) := by
  rw [readMembers, if_pos h]

lemma readMembers_error {refusal : Refusal} (hmet : key ∉ met)
    (h : readMember fields met key ts = .error refusal) :
    readMembers fields met record (.text (.ok key) none :: .colon :: ts) = .error refusal := by
  rw [readMembers, if_neg hmet]
  simp only [passColon, h]

lemma readMembers_last {change : α → α} {met' : List String} {hlength} (hmet : key ∉ met)
    (h : readMember fields met key ts = .ok ((change, met'), ⟨.closeObject :: left, hlength⟩)) :
    ComesTo (readMembers fields met record (.text (.ok key) none :: .colon :: ts)) left
      (.ok (change record)) := by
  refine ⟨?_, ?_⟩
  · simp only [List.length_cons] at hlength ⊢
    omega
  · rw [readMembers, if_neg hmet]
    simp only [passColon, h]

/-- A comma, and then another member. -/
lemma readMembers_more {change : α → α} {met' : List String} {next : String}
    {ts' : List Token} {hlength} {result : Except String α} (hmet : key ∉ met)
    (h : readMember fields met key ts =
      .ok ((change, met'), ⟨.comma :: .text (.ok next) none :: ts', hlength⟩))
    (hrest : ComesTo (readMembers fields met' (change record) (.text (.ok next) none :: ts')) left
      result) :
    ComesTo (readMembers fields met record (.text (.ok key) none :: .colon :: ts)) left result := by
  cases result with
  | ok value =>
    obtain ⟨hleft, hread⟩ := hrest
    refine ⟨?_, ?_⟩
    · simp only [List.length_cons] at hlength hleft ⊢
      omega
    · rw [readMembers, if_neg hmet]
      simp only [passColon, h, hread]
  | error repeated =>
    obtain ⟨refusal, hread, hname⟩ := hrest
    refine ⟨refusal, ?_, hname⟩
    rw [readMembers, if_neg hmet]
    simp only [passColon, h, hread]

/-- One member, where it is known what its change of the record leads to. -/
lemma comesTo_member {value after : List Char} {next : List Token}
    {conveyed : Except String (α → α)} {result : (α → α) → Except String α}
    (h : key ∉ met → Conveys fields key value conveyed) (hstops : Stops after)
    (hafter : toks after = next)
    (hchange : ∀ change hlength, key ∉ met →
      readMember fields met key (toks (value ++ after)) =
        .ok ((change, meet (fields.map Field.name) key met), ⟨next, hlength⟩) →
      ComesTo (readMembers fields met record (.text (.ok key) none :: .colon ::
        toks (value ++ after))) left (result change)) :
    ComesTo (readMembers fields met record (.text (.ok key) none :: .colon ::
        toks (value ++ after))) left
      (if key ∈ met then .error key else conveyed.bind result) := by
  by_cases hmet : key ∈ met
  · rw [if_pos hmet]
    exact ⟨_, readMembers_met hmet, rfl⟩
  · rw [if_neg hmet]
    have hread := (h hmet).yields met after hstops next hafter
    cases conveyed with
    | error repeated =>
      obtain ⟨refusal, hread, hname⟩ := hread
      exact ⟨refusal, readMembers_error hmet hread, hname⟩
    | ok change =>
      obtain ⟨hlength, hread⟩ := hread
      exact hchange change hlength hmet hread

/-- A member is written as `Writes` says only if it conveys its outcome, or if its name is that of a
field that a member before it has. -/
def Faithful (fields : List (Field α)) (name : μ → String)
    (Writes : List String → μ → List Char → Prop) (outcome : μ → Except String (α → α)) : Prop :=
  ∀ seen member text, Writes seen member text →
    (name member ∈ fields.map Field.name ∧ name member ∈ seen) ∨
      Conveys fields (name member) text (outcome member)

/-- A member that may hold any value, since its name is no field or is known to be one already. -/
lemma seen_or_conveys {n : String} (hseen : n ∈ fields.map Field.name → n ∈ seen)
    (hvalue : Derives .value text) :
    (n ∈ fields.map Field.name ∧ n ∈ seen) ∨ Conveys fields n text (.ok id) := by
  by_cases hknown : n ∈ fields.map Field.name
  · exact .inl ⟨hknown, hseen hknown⟩
  · exact .inr (.other hknown hvalue)

/-- Reading members up to the end of their object comes to what they collect.  The fields among the
names of the members before are those that were met. -/
lemma comesTo_readMembers (hwrites : Faithful fields name Writes outcome)
    (h : MembersOf name Writes seen members text) (met : List String)
    (hmet : ∀ n ∈ fields.map Field.name, n ∈ seen → n ∈ met) (record : α) (rest : List Char) :
    ComesTo (readMembers fields met record (toks (text ++ '}' :: rest))) (toks rest)
      (collect (fields.map Field.name) name outcome met record members) := by
  -- A member need not convey anything where its name alone is refused.
  have hconveys {seen met : List String} {member : μ} {value : List Char}
      (hmet : ∀ n ∈ fields.map Field.name, n ∈ seen → n ∈ met) (hvalue : Writes seen member value)
      (hnew : name member ∉ met) : Conveys fields (name member) value (outcome member) := by
    rcases hwrites seen member value hvalue with ⟨hknown, hseen⟩ | hconveys
    · exact absurd (hmet _ hknown hseen) hnew
    · exact hconveys
  induction h generalizing met record with
  | @last seen member before quoted gap gap' value after hbefore hkey hgap hgap' hvalue hafter =>
    have hstops := (stops_cons (by decide : '}' ∈ _) rest).blank_append hafter
    have hend : toks (after ++ '}' :: rest) = .closeObject :: toks rest := by
      rw [toks_blank hafter, toks_closeObject]
    rw [List.append_assoc _ after, toks_member hbefore hkey hgap hgap']
    refine comesTo_member (hconveys hmet hvalue) hstops hend ?_
    intro change hlength hnew hread
    exact readMembers_last hnew hread
  | @more seen member members before quoted gap gap' value after text hbefore hkey hgap hgap' hvalue
      hafter htext ih =>
    have hstops := (stops_cons (by decide : ',' ∈ _) (text ++ '}' :: rest)).blank_append hafter
    obtain ⟨next, ts, hnext⟩ :
        ∃ next ts, toks (text ++ '}' :: rest) = .text (.ok next) none :: ts := toks_membersOf htext
    have hcomma : toks (after ++ ',' :: (text ++ '}' :: rest)) =
        .comma :: .text (.ok next) none :: ts := by
      rw [toks_blank hafter, toks_comma, hnext]
    have hassoc : before ++ quoted ++ gap ++ ':' :: gap' ++ value ++ after ++ ',' :: text ++
        '}' :: rest = before ++ quoted ++ gap ++ ':' :: gap' ++ value ++
          (after ++ ',' :: (text ++ '}' :: rest)) := by simp
    rw [hassoc, toks_member hbefore hkey hgap hgap']
    refine comesTo_member (hconveys hmet hvalue) hstops hcomma ?_
    intro change hlength hnew hread
    have hmeet : ∀ n ∈ fields.map Field.name, n ∈ name member :: seen →
        n ∈ meet (fields.map Field.name) (name member) met := by
      intro n hknown hn
      rcases List.mem_cons.1 hn with rfl | hn
      · exact mem_meet.2 (.inr ⟨rfl, hknown⟩)
      · exact mem_meet.2 (.inl (hmet n hknown hn))
    have hrest := ih (meet (fields.map Field.name) (name member) met) hmeet (change record)
    rw [hnext] at hrest
    exact readMembers_more hnew hread hrest

/-- Reading an object into a record comes to what its members collect. -/
lemma yields_readRecord {shape : Shape α} (hwrites : Faithful shape.fields name Writes outcome)
    (h : ObjectOf name Writes members text) (start : α) :
    Yields (readRecord shape start) text
      (collect (shape.fields.map Field.name) name outcome [] start members) := by
  rintro rest _ left rfl
  cases h with
  | empty hblank =>
    rw [List.cons_append, List.append_assoc, toks_openObject, toks_blank hblank,
      List.singleton_append, toks_closeObject]
    exact ⟨by simp only [List.length_cons]; omega, rfl⟩
  | @members _ inner h =>
    have hread := comesTo_readMembers hwrites h [] (fun _ _ hn => hn) start rest
    obtain ⟨next, ts, hnext⟩ :
        ∃ next ts, toks (inner ++ '}' :: rest) = .text (.ok next) none :: ts := toks_membersOf h
    rw [List.cons_append, List.append_assoc, toks_openObject, List.singleton_append, hnext]
    rw [hnext] at hread
    generalize collect (shape.fields.map Field.name) name outcome [] start members = result
      at hread ⊢
    cases result with
    | ok value =>
      obtain ⟨hlength, hread⟩ := hread
      exact ⟨Nat.lt_succ_of_lt hlength, by simp only [readRecord, readObject, hread]⟩
    | error repeated =>
      obtain ⟨refusal, hread, hname⟩ := hread
      exact ⟨refusal, by simp only [readRecord, readObject, hread], hname⟩

end

/-- A text that is read as a whole may have white space around it. -/
lemma readAll_of_yields {reader : Reader α} {before after : List Char} (hbefore : Blank before)
    (hafter : Blank after) {outcome : Except String α} (h : Yields reader text outcome) :
    (∀ value, outcome = .ok value →
      readAll reader (encode (before ++ text ++ after)) = .ok value) ∧
    ∀ name, outcome = .error name →
      ∃ failure, readAll reader (encode (before ++ text ++ after)) = .error failure ∧
        failure.error = .duplicateField name := by
  have hstops : Stops after := by simpa using stops_nil.blank_append hafter
  have hend : toks (after ++ []) = [] := by rw [toks_blank hafter, toks_nil]
  rw [List.append_nil] at hend
  have hread := h after hstops [] hend
  have htoks : tokens (encode (before ++ text ++ after)) = toks (text ++ after) := by
    rw [List.append_assoc, ← toks_blank hbefore, toks]
  rw [← htoks] at hread
  refine ⟨?_, ?_⟩
  · rintro value rfl
    obtain ⟨hlength, hread⟩ := hread
    simp only [readAll, hread]
  · rintro name rfl
    obtain ⟨refusal, hread, hname⟩ := hread
    refine ⟨refusal.failure (encode (before ++ text ++ after)), ?_, hname⟩
    simp only [readAll, hread]

/-! ## Members in any order -/

section

variable {known : List String} {name : μ → String} {outcome : μ → Except String (α → α)}
  {put : μ → α → α} {members : List μ} {met : List String} {record : α}

/-- What reading fails with is a field that is given twice, here or inside a member. -/
lemma collect_error {n : String}
    (h : collect known name outcome met record members = .error n) :
    (n ∈ met ∧ n ∈ members.map name) ∨ (n ∈ known ∧ (members.map name).Duplicate n) ∨
      ∃ member ∈ members, outcome member = .error n := by
  induction members generalizing met record with
  | nil => cases h
  | cons member members ih =>
    rw [collect] at h
    split at h
    · rename_i hmet
      cases h
      exact .inl ⟨hmet, List.mem_cons_self⟩
    · cases houtcome : outcome member with
      | error repeated =>
        rw [houtcome] at h
        cases h
        exact .inr (.inr ⟨member, List.mem_cons_self, houtcome⟩)
      | ok change =>
        rw [houtcome] at h
        rcases ih h with ⟨hmet, hlater⟩ | ⟨hknown, htwice⟩ | ⟨later, hlater, houtcome⟩
        · rcases mem_meet.1 hmet with hmet | ⟨rfl, hknown⟩
          · exact .inl ⟨hmet, List.mem_cons_of_mem _ hlater⟩
          · exact .inr (.inl ⟨hknown, hlater.duplicate_cons_self⟩)
        · exact .inr (.inl ⟨hknown, htwice.duplicate_cons _⟩)
        · exact .inr (.inr ⟨later, List.mem_cons_of_mem _ hlater, houtcome⟩)

/-- Reading that does not fail has met no field twice, and every member has changed the record. -/
lemma collect_ok {value : α}
    (hput : ∀ member change, outcome member = .ok change → change = put member)
    (h : collect known name outcome met record members = .ok value) :
    (∀ n ∈ met, n ∉ members.map name) ∧ (∀ n ∈ known, ¬(members.map name).Duplicate n) ∧
      (∀ member ∈ members, outcome member = .ok (put member)) ∧
      value = members.foldl (fun record member => put member record) record := by
  induction members generalizing met record with
  | nil =>
    cases h
    simp
  | cons member members ih =>
    rw [collect] at h
    split at h
    · cases h
    · rename_i hmet
      cases houtcome : outcome member with
      | error repeated =>
        rw [houtcome] at h
        cases h
      | ok change =>
        rw [houtcome] at h
        obtain ⟨hlater, htwice, houtcomes, hvalue⟩ := ih h
        obtain rfl := hput member change houtcome
        refine ⟨?_, ?_, ?_, hvalue⟩
        · intro n hn
          rw [List.map_cons, List.mem_cons, not_or]
          exact ⟨fun he => hmet (he ▸ hn), hlater n (mem_meet.2 (.inl hn))⟩
        · intro n hn hduplicate
          rcases List.duplicate_cons_iff.1 hduplicate with ⟨rfl, hagain⟩ | hduplicate
          · exact hlater _ (mem_meet.2 (.inr ⟨rfl, hn⟩)) hagain
          · exact htwice n hn hduplicate
        · intro other hother
          rcases List.mem_cons.1 hother with rfl | hother
          · exact houtcome
          · exact houtcomes other hother

/-- Where only one member can give a field, the field has what that member gives, and else what it
started from. -/
lemma get_foldl (get : α → β) (pick : μ → Option β) {key : String}
    (hget : ∀ member record, get (put member record) = (pick member).getD (get record))
    (hkey : ∀ member, (pick member).isSome → name member = key)
    (hunique : ¬(members.map name).Duplicate key) :
    get (members.foldl (fun record member => put member record) record) =
      (members.findSome? pick).getD (get record) := by
  induction members generalizing record with
  | nil => rfl
  | cons member members ih =>
    have hlater : ¬(members.map name).Duplicate key := fun h => hunique (h.duplicate_cons _)
    rw [List.foldl_cons, ih hlater, hget, List.findSome?_cons]
    cases hpick : pick member with
    | none => rfl
    | some given =>
      have hnone : members.findSome? pick = none := by
        refine List.findSome?_eq_none_iff.2 fun other hother => ?_
        refine Option.not_isSome_iff_eq_none.1 fun hsome => hunique ?_
        have hmem : key ∈ members.map name := hkey other hsome ▸ List.mem_map_of_mem hother
        rw [List.map_cons, hkey member (by rw [hpick]; rfl)]
        exact hmem.duplicate_cons_self
      rw [hnone]
      rfl

end

end ChipVm.Json
