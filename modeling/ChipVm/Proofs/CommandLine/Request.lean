/-
# Command lines that ask for the same

What a user asks for is a program and some of the settings and switches (`Request`).  There are
many command lines that ask for it: the single wishes come in any order, and a setting is written
as two arguments or as one, and its number with superfluous zeros or a plus sign
(`Wish.Spells`, `Request.Asked`).

The arguments are read one by one, and an argument is looked at closely only when the next one is
met.  What is kept in between is a draft, into which all wishes so far have been put
(`Progress.Holds`): reading one more wish that is new to the draft puts it in as well
(`Progress.exists_takeAll_of_spells`), so in the end all wishes are in it.  Different wishes go
into different fields, and therefore their order does not show (`Draft.foldl_grant_of_perm`).

What can be wished for is no less than what the settings take: a value that does not start with a
dash is taken exactly if it amounts to a wish (`Draft.assign_eq_ok_iff`).
-/
import Mathlib.Data.List.Forall2
import Mathlib.Data.List.Nodup
import Mathlib.Data.List.TakeWhile
import Mathlib.Tactic.Lemma
import ChipVm.CommandLine.Arguments

namespace ChipVm

namespace CommandLine

/-! ## Wishes -/

/-- One thing that a user asks for. -/
inductive Wish where
  | program (path : String)
  | config (path : String)
  | rate (rate : UInt32)
  | seed (seed : UInt64)
  | scale (scale : UInt32)
  | modern
  | disassemble
deriving DecidableEq

/-- The name of a setting. -/
def Setting.name : Setting → String
  | .config => "config"
  | .rate => "rate"
  | .seed => "seed"
  | .scale => "scale"

/-- The text writes the number in decimal digits, perhaps after a plus sign. -/
def Writes (text : String) (n : Nat) : Prop :=
  ∃ digits, (text.toList = digits ∨ text.toList = '+' :: digits) ∧ digits ≠ [] ∧
    (∀ c ∈ digits, c.isDigit = true) ∧ Nat.ofDigitChars 10 digits 0 = n

/-- The text does not start with a dash. -/
def Undashed (text : String) : Prop :=
  text.toList.head? ≠ some '-'

instance (text : String) : Decidable (Undashed text) :=
  inferInstanceAs (Decidable (text.toList.head? ≠ some '-'))

namespace Wish

/-- What stands behind the dashes of a wish; the program stands there by itself. -/
def name? : Wish → Option Name
  | program _ => none
  | config _ => some (.setting .config)
  | rate _ => some (.setting .rate)
  | seed _ => some (.setting .seed)
  | scale _ => some (.setting .scale)
  | modern => some .modern
  | disassemble => some .disassemble

/-- The text is a value for a setting that amounts to a wish. -/
inductive Sets : Setting → String → Wish → Prop where
  | config {path : String} : path ≠ "" → Sets .config path (.config path)
  | rate {text : String} {rate : UInt32} : Writes text rate.toNat → Sets .rate text (.rate rate)
  | seed {text : String} {seed : UInt64} : Writes text seed.toNat → Sets .seed text (.seed seed)
  | scale {text : String} {scale : UInt32} :
    Writes text scale.toNat → Sets .scale text (.scale scale)

/-- The arguments in which a wish can be written. -/
inductive Spells : Wish → List String → Prop where
  | program {path : String} : path ≠ "" → Undashed path → Spells (.program path) [path]
  | apart {setting : Setting} {value : String} {wish : Wish} :
    Sets setting value wish → Undashed value → Spells wish ["--" ++ setting.name, value]
  | joined {setting : Setting} {value : String} {wish : Wish} :
    Sets setting value wish → Spells wish ["--" ++ setting.name ++ "=" ++ value]
  | modern : Spells .modern ["--modern"]
  | disassemble : Spells .disassemble ["--disassemble"]

end Wish

/-! ## Drafts -/

namespace Draft

/-- Puts a wish into a draft. -/
def grant (draft : Draft) : Wish → Draft
  | .program path => { draft with program := some path }
  | .config path => { draft with config := some path }
  | .rate rate => { draft with rate := some rate.toNat }
  | .seed seed => { draft with seed := some seed.toNat }
  | .scale scale => { draft with scale := some scale.toNat }
  | .modern => { draft with modern := true }
  | .disassemble => { draft with disassemble := true }

/-- Whether something is in a draft. -/
def holds (draft : Draft) : Option Name → Bool
  | none => draft.program.isSome
  | some (.setting setting) => draft.has setting
  | some .modern => draft.modern
  | some .disassemble => draft.disassemble
  | some .help => false

lemma holds_grant_of_ne (draft : Draft) {wish : Wish} {name : Option Name}
    (h : wish.name? ≠ name) : (draft.grant wish).holds name = draft.holds name := by
  rcases name with _ | (setting | _ | _ | _)
  · cases wish <;> first | rfl | exact absurd rfl h
  · cases setting <;> cases wish <;> first | rfl | exact absurd rfl h
  · cases wish <;> first | rfl | exact absurd rfl h
  · cases wish <;> first | rfl | exact absurd rfl h
  · cases wish <;> rfl

/-- Different wishes go into different fields. -/
lemma grant_comm (draft : Draft) {first second : Wish} (h : first.name? ≠ second.name?) :
    (draft.grant first).grant second = (draft.grant second).grant first := by
  cases first <;> cases second <;> first | rfl | exact absurd rfl h

lemma foldl_grant_of_perm {wishes wishes' : List Wish} (h : wishes.Perm wishes')
    (hnodup : (wishes.map Wish.name?).Nodup) (draft : Draft) :
    wishes.foldl grant draft = wishes'.foldl grant draft := by
  refine h.foldl_eq' ?_ draft
  intro first hfirst second hsecond draft
  by_cases hname : first.name? = second.name?
  · rw [List.inj_on_of_nodup_map hnodup hfirst hsecond hname]
  · exact draft.grant_comm hname

end Draft

/-! ## Values -/

section

variable {digits : List Char} {text : String} {n : Nat}

lemma digitsValue?_eq_some_iff :
    digitsValue? digits = some n ↔
      digits ≠ [] ∧ (∀ c ∈ digits, c.isDigit = true) ∧ Nat.ofDigitChars 10 digits 0 = n := by
  unfold digitsValue?
  split
  · rename_i hempty
    simp [List.isEmpty_iff.1 hempty]
  · rename_i hempty
    have hne : digits ≠ [] := by simpa using hempty
    split
    · rename_i hall
      simp only [Option.some.injEq, Nat.ofDigitChars_eq_foldl, Nat.mul_comm]
      exact ⟨fun h => ⟨hne, List.all_eq_true.1 hall, h⟩, fun h => h.2.2⟩
    · rename_i hall
      simp only [reduceCtorEq, false_iff]
      exact fun h => hall (List.all_eq_true.2 h.2.1)

/-- Behind a plus sign, everything has to be digits. -/
lemma writes_iff_of_plus (htext : text.toList = '+' :: digits) :
    Writes text n ↔ digitsValue? digits = some n := by
  rw [digitsValue?_eq_some_iff]
  constructor
  · rintro ⟨digits', hdigits' | hdigits', hne, hall, hvalue⟩
    · -- A plus sign is no digit itself.
      rw [← hdigits', htext] at hall
      exact absurd (hall '+' List.mem_cons_self) (by decide)
    · obtain rfl : digits = digits' := (List.cons.inj (htext.symm.trans hdigits')).2
      exact ⟨hne, hall, hvalue⟩
  · intro h
    exact ⟨digits, .inr htext, h⟩

lemma writes_iff_of_ne_plus (htext : ∀ digits, text.toList ≠ '+' :: digits) :
    Writes text n ↔ digitsValue? text.toList = some n := by
  rw [digitsValue?_eq_some_iff]
  constructor
  · rintro ⟨digits, rfl | hdigits, h⟩
    · exact h
    · exact absurd hdigits (htext digits)
  · intro h
    exact ⟨text.toList, .inl rfl, h⟩

/-- A minus sign is neither a digit nor a plus sign. -/
lemma undashed_of_writes (h : Writes text n) : Undashed text := by
  obtain ⟨digits, htext | htext, -, hall, -⟩ := h
  · rw [Undashed, htext]
    intro hhead
    exact absurd (hall '-' (List.mem_of_mem_head? hhead)) (by decide)
  · rw [Undashed, htext]
    simp

lemma parse32?_eq_some_iff (hdash : Undashed text) :
    parse32? text = some n ↔ Writes text n ∧ n < UInt32.size := by
  unfold parse32?
  split
  · rename_i digits htext
    rw [writes_iff_of_plus htext, Option.filter_eq_some_iff, decide_eq_true_eq]
  · rename_i digits htext
    rw [Undashed, htext] at hdash
    exact absurd rfl hdash
  · rename_i hplus _
    rw [writes_iff_of_ne_plus hplus, Option.filter_eq_some_iff, decide_eq_true_eq]

lemma parse64?_eq_some_iff : parse64? text = some n ↔ Writes text n ∧ n < UInt64.size := by
  unfold parse64?
  split
  · rename_i digits htext
    rw [writes_iff_of_plus htext, Option.filter_eq_some_iff, decide_eq_true_eq]
  · rename_i hplus
    rw [writes_iff_of_ne_plus hplus, Option.filter_eq_some_iff, decide_eq_true_eq]

end

namespace Draft

variable {setting : Setting} {value : String} {wish : Wish}

lemma name?_of_sets (h : wish.Sets setting value) : wish.name? = some (.setting setting) := by
  cases h <;> rfl

/-- A valid value puts the wish that it amounts to into the draft. -/
lemma assign_of_sets (draft : Draft) (h : wish.Sets setting value) :
    draft.assign setting value = .ok (draft.grant wish) := by
  have h32 {rate : UInt32} (hwrites : Writes value rate.toNat) :
      parse32? value = some rate.toNat :=
    (parse32?_eq_some_iff (undashed_of_writes hwrites)).2 ⟨hwrites, rate.toNat_lt⟩
  cases h with
  | config hne =>
    have hempty : value.isEmpty = false := by simpa using hne
    rw [assign, hempty]
    rfl
  | rate hwrites => rw [assign, h32 hwrites, grant]
  | @seed _ seed hwrites =>
    rw [assign, parse64?_eq_some_iff.2 ⟨hwrites, seed.toNat_lt⟩, grant]
  | scale hwrites => rw [assign, h32 hwrites, grant]

lemma exists_word32_of_parse32? {n : Nat} (hdash : Undashed value)
    (h : parse32? value = some n) : ∃ word : UInt32, word.toNat = n ∧ Writes value word.toNat := by
  obtain ⟨hwrites, hlt⟩ := (parse32?_eq_some_iff hdash).1 h
  obtain ⟨word, rfl⟩ : ∃ word : UInt32, word.toNat = n :=
    ⟨UInt32.ofNat n, UInt32.toNat_ofNat_of_lt hlt⟩
  exact ⟨word, rfl, hwrites⟩

/-- A setting takes exactly the values that amount to a wish, as far as they do not start with a
dash. -/
theorem assign_eq_ok_iff {draft draft' : Draft} (hdash : Undashed value) :
    draft.assign setting value = .ok draft' ↔
      ∃ wish : Wish, wish.Sets setting value ∧ draft.grant wish = draft' := by
  constructor
  · intro h
    cases setting with
    | config =>
      by_cases hempty : value.isEmpty
      · simp [assign, hempty] at h
      · rw [assign, if_neg hempty] at h
        cases h
        exact ⟨.config value, .config (by simpa using hempty), rfl⟩
    | rate =>
      cases hparse : parse32? value with
      | none => simp [assign, hparse] at h
      | some n =>
        obtain ⟨rate, rfl, hwrites⟩ := exists_word32_of_parse32? hdash hparse
        simp only [assign, hparse, Except.ok.injEq] at h
        exact ⟨.rate rate, .rate hwrites, h⟩
    | seed =>
      cases hparse : parse64? value with
      | none => simp [assign, hparse] at h
      | some n =>
        obtain ⟨hwrites, hlt⟩ := parse64?_eq_some_iff.1 hparse
        obtain ⟨seed, rfl⟩ : ∃ seed : UInt64, seed.toNat = n :=
          ⟨UInt64.ofNat n, UInt64.toNat_ofNat_of_lt hlt⟩
        simp only [assign, hparse, Except.ok.injEq] at h
        exact ⟨.seed seed, .seed hwrites, h⟩
    | scale =>
      cases hparse : parse32? value with
      | none => simp [assign, hparse] at h
      | some n =>
        obtain ⟨scale, rfl, hwrites⟩ := exists_word32_of_parse32? hdash hparse
        simp only [assign, hparse, Except.ok.injEq] at h
        exact ⟨.scale scale, .scale hwrites, h⟩
  · rintro ⟨wish, hsets, rfl⟩
    exact draft.assign_of_sets hsets

lemma settle_of_sets {draft : Draft} (h : wish.Sets setting value)
    (hnew : draft.holds wish.name? = false) :
    draft.settle (.setting setting (some value)) = .ok (draft.grant wish) := by
  rw [name?_of_sets h, holds] at hnew
  rw [settle, hnew, if_neg Bool.false_ne_true]
  exact draft.assign_of_sets h

end Draft

/-! ## Reading one argument after the other -/

namespace Progress

/-- All that has been read so far is in the draft, once the pending argument is settled, and no
setting waits for its value. -/
structure Holds (p : Progress) (draft : Draft) : Prop where
  settled : p.settled = .ok draft
  complete : ∀ setting, p.pending ≠ some (.setting setting none)
  named : p.named = draft.program.isSome
  pathsOnly : p.pathsOnly = false

lemma holds_start : start.Holds Draft.empty :=
  ⟨rfl, nofun, rfl, rfl⟩

variable {p : Progress} {draft : Draft}

lemma takeAll_append (p : Progress) (first second : List String) :
    p.takeAll (first ++ second) =
      match p.takeAll first with
      | .error error => .error error
      | .ok p => p.takeAll second := by
  induction first generalizing p with
  | nil => rfl
  | cons argument first ih =>
    rw [List.cons_append, takeAll, takeAll]
    cases p.take argument with
    | error error => rfl
    | ok p => exact ih p

/-! ### Single arguments -/

lemma take_undashed {argument : String} (hpaths : p.pathsOnly = false) (h : Undashed argument) :
    p.take argument = p.takeValue argument := by
  unfold take
  rw [hpaths, if_neg Bool.false_ne_true]
  unfold Undashed at h
  split
  all_goals first | rfl | (rename_i heq; simp [heq] at h)

lemma take_dashed {argument : String} {text : List Char} (hpaths : p.pathsOnly = false)
    (htext : argument.toList = '-' :: '-' :: text) (hne : text ≠ []) :
    p.take argument = p.takeName (splitAtEquals text).1 (splitAtEquals text).2 := by
  unfold take
  rw [hpaths, if_neg Bool.false_ne_true, htext]
  cases text with
  | nil => exact absurd rfl hne
  | cons c text => rfl

lemma ne_equals_of_not_mem {text : List Char} (h : '=' ∉ text) : ∀ c ∈ text, (c != '=') = true := by
  intro c hc
  rw [bne_iff_ne]
  rintro rfl
  exact h hc

lemma splitAtEquals_plain {text : List Char} (h : '=' ∉ text) :
    splitAtEquals text = (String.ofList text, none) := by
  rw [splitAtEquals, List.dropWhile_eq_nil_iff.2 (ne_equals_of_not_mem h)]

lemma splitAtEquals_value {text : List Char} (h : '=' ∉ text) (value : List Char) :
    splitAtEquals (text ++ '=' :: value) = (String.ofList text, some (String.ofList value)) := by
  rw [splitAtEquals, List.dropWhile_append_of_pos (ne_equals_of_not_mem h),
    List.takeWhile_append_of_pos (ne_equals_of_not_mem h)]
  simp

lemma not_equals_name (setting : Setting) : '=' ∉ setting.name.toList := by
  cases setting <;> decide

lemma ofText?_name (setting : Setting) : Name.ofText? setting.name = some (.setting setting) := by
  cases setting <;> rfl

lemma name_ne_nil (setting : Setting) : setting.name.toList ≠ [] := by
  cases setting <;> decide

/-- A name without a value behind it. -/
lemma take_name (name : String) (hpaths : p.pathsOnly = false) (hplain : '=' ∉ name.toList)
    (hne : name.toList ≠ []) : p.take ("--" ++ name) = p.takeName name none := by
  have htext : ("--" ++ name).toList = '-' :: '-' :: name.toList := by simp
  rw [take_dashed hpaths htext hne, splitAtEquals_plain hplain, String.ofList_toList]

/-- A setting by itself waits for its value. -/
lemma take_setting (h : p.Holds draft) (setting : Setting) :
    p.take ("--" ++ setting.name)
      = .ok { p with draft, pending := some (.setting setting none) } := by
  rw [take_name setting.name h.pathsOnly (not_equals_name setting) (name_ne_nil setting)]
  simp only [takeName, ofText?_name, takeSetting, h.settled]

/-- A setting with its value behind an equals sign is settled at once. -/
lemma take_setting_value (h : p.Holds draft) {setting : Setting} {value : String} {wish : Wish}
    (hsets : wish.Sets setting value) (hnew : draft.holds wish.name? = false) :
    p.take ("--" ++ setting.name ++ "=" ++ value)
      = .ok { p with draft := draft.grant wish, pending := none } := by
  have htext : ("--" ++ setting.name ++ "=" ++ value).toList
      = '-' :: '-' :: (setting.name.toList ++ '=' :: value.toList) := by simp
  rw [take_dashed h.pathsOnly htext (by simp),
    splitAtEquals_value (not_equals_name setting)]
  simp only [takeName, String.ofList_toList, ofText?_name, takeSetting, h.settled,
    Draft.settle_of_sets hsets hnew]

/-- A switch that is off is turned on. -/
lemma take_switch (name : String) (isOn : Draft → Bool) (turnOn : Draft → Draft)
    (hname : p.takeName name none = p.takeSwitch isOn turnOn) (hplain : '=' ∉ name.toList)
    (hne : name.toList ≠ []) (h : p.Holds draft) (hoff : isOn draft = false) :
    p.take ("--" ++ name) = .ok { p with draft := turnOn draft, pending := none } := by
  rw [take_name name h.pathsOnly hplain hne, hname]
  simp [takeSwitch, h.settled, hoff]

lemma take_modern (h : p.Holds draft) (hoff : draft.modern = false) :
    p.take "--modern" = .ok { p with draft := { draft with modern := true }, pending := none } :=
  take_switch "modern" Draft.modern (fun draft => { draft with modern := true }) rfl
    (by decide) (by decide) h hoff

lemma take_disassemble (h : p.Holds draft) (hoff : draft.disassemble = false) :
    p.take "--disassemble"
      = .ok { p with draft := { draft with disassemble := true }, pending := none } :=
  take_switch "disassemble" Draft.disassemble (fun draft => { draft with disassemble := true }) rfl
    (by decide) (by decide) h hoff

/-- Where no setting waits for a value, an argument without a dash is the program. -/
lemma take_program (h : p.Holds draft) {path : String} (hdash : Undashed path)
    (hnew : draft.program = none) :
    p.take path = .ok { p with draft, pending := some (.program path), named := true } := by
  have hnamed : p.named = false := by
    rw [h.named, hnew]
    rfl
  have hpath : p.takeValue path = p.takePath path := by
    unfold takeValue
    split
    · rename_i setting hpending
      exact absurd hpending (h.complete setting)
    · rfl
  rw [take_undashed h.pathsOnly hdash, hpath, takePath, hnamed, if_neg Bool.false_ne_true,
    h.settled]

/-! ### Wishes -/

/-- Nothing is pending, and everything else is as before. -/
lemma Holds.of_settled (h : p.Holds draft) {draft' : Draft}
    (hprogram : draft'.program = draft.program) :
    Holds { p with draft := draft', pending := none } draft' :=
  ⟨rfl, nofun, hprogram ▸ h.named, h.pathsOnly⟩

/-- A setting is no program. -/
lemma program_grant_of_sets (draft : Draft) {setting : Setting} {value : String} {wish : Wish}
    (h : wish.Sets setting value) : (draft.grant wish).program = draft.program := by
  cases h <;> rfl

/-- A wish that is not in the draft yet is read and put into it. -/
lemma exists_takeAll_of_spells (h : p.Holds draft) {wish : Wish} {words : List String}
    (hspells : wish.Spells words) (hnew : draft.holds wish.name? = false) :
    ∃ p', p.takeAll words = .ok p' ∧ p'.Holds (draft.grant wish) := by
  cases hspells with
  | @program path hne hdash =>
    have hsome : draft.program.isSome = false := hnew
    have hnone : draft.program = none := by simpa using hsome
    have hempty : path.isEmpty = false := by simpa using hne
    refine ⟨{ p with draft, pending := some (.program path), named := true }, ?_, ?_⟩
    · simp only [takeAll, take_program h hdash hnone]
    · refine ⟨?_, nofun, rfl, h.pathsOnly⟩
      simp [settled, Draft.settle, hempty, Draft.grant]
  | @apart setting value _ hsets hdash =>
    refine ⟨{ p with draft, pending := some (.setting setting (some value)) }, ?_, ?_⟩
    · have hvalue := take_undashed
        (p := { p with draft, pending := some (.setting setting none) }) h.pathsOnly hdash
      simp only [takeAll, take_setting h, hvalue, takeValue]
    · refine ⟨Draft.settle_of_sets hsets hnew, ?_, ?_, h.pathsOnly⟩
      · rintro _ ⟨⟩
      · rw [program_grant_of_sets draft hsets]
        exact h.named
  | @joined setting value _ hsets =>
    refine ⟨{ p with draft := draft.grant wish, pending := none }, ?_, ?_⟩
    · simp only [takeAll, take_setting_value h hsets hnew]
    · exact h.of_settled (program_grant_of_sets draft hsets)
  | modern =>
    refine ⟨{ p with draft := draft.grant .modern, pending := none }, ?_, h.of_settled rfl⟩
    simp only [takeAll, take_modern h hnew, Draft.grant]
  | disassemble =>
    refine ⟨{ p with draft := draft.grant .disassemble, pending := none }, ?_, h.of_settled rfl⟩
    simp only [takeAll, take_disassemble h hnew, Draft.grant]

/-- What a run of wishes that are new to the draft, and differ from each other, comes to. -/
lemma exists_takeAll_of_forall₂ {wishes : List Wish} {pieces : List (List String)}
    (hspells : List.Forall₂ Wish.Spells wishes pieces) (h : p.Holds draft)
    (hnew : ∀ wish ∈ wishes, draft.holds wish.name? = false)
    (hnodup : (wishes.map Wish.name?).Nodup) :
    ∃ p', p.takeAll pieces.flatten = .ok p' ∧ p'.Holds (wishes.foldl Draft.grant draft) := by
  induction hspells generalizing p draft with
  | nil => exact ⟨p, rfl, h⟩
  | @cons wish words wishes pieces hwish _ ih =>
    obtain ⟨hfresh, hrest⟩ := List.nodup_cons.1 hnodup
    obtain ⟨p', htake, hp'⟩ := exists_takeAll_of_spells h hwish (hnew wish List.mem_cons_self)
    have hnew' : ∀ other ∈ wishes, (draft.grant wish).holds other.name? = false := by
      intro other hother
      have hne : wish.name? ≠ other.name? :=
        fun heq => hfresh (heq ▸ List.mem_map_of_mem hother)
      rw [draft.holds_grant_of_ne hne]
      exact hnew other (List.mem_cons_of_mem wish hother)
    obtain ⟨p'', htake', hp''⟩ := ih hp' hnew' hrest
    refine ⟨p'', ?_, hp''⟩
    rw [List.flatten_cons, takeAll_append, htake]
    exact htake'

end Progress

/-! ## Requests -/

/-- What a user asks for all in all. -/
structure Request where
  /-- The path of the program. -/
  program : String
  /-- The path of a configuration file. -/
  config : Option String
  /-- Instructions per second. -/
  rate : Option UInt32
  /-- The seed. -/
  seed : Option UInt64
  /-- Window pixels for each pixel of the screen. -/
  scale : Option UInt32
  /-- Whether the modern dialect is asked for. -/
  modern : Bool
  /-- Whether a listing is asked for. -/
  disassemble : Bool
deriving DecidableEq

namespace Request

/-- The single wishes of a request. -/
def wishes (request : Request) : List Wish :=
  .program request.program ::
    (request.config.toList.map .config ++ request.rate.toList.map .rate ++
      request.seed.toList.map .seed ++ request.scale.toList.map .scale ++
      (if request.modern then [.modern] else []) ++
      (if request.disassemble then [.disassemble] else []))

/-- The command line asks for all wishes of a request, each once, in some order and in some
spelling. -/
def Asked (request : Request) (line : List String) : Prop :=
  ∃ wishes pieces, wishes.Perm request.wishes ∧ List.Forall₂ Wish.Spells wishes pieces ∧
    line = pieces.flatten

/-- What the program makes of a request. -/
def arguments (request : Request) : Arguments where
  program := request.program
  config := request.config
  rate := request.rate
  seed := request.seed
  modern := request.modern
  scale := request.scale.getD 10
  disassemble := request.disassemble

/-- The draft that has all wishes of a request in it. -/
def draft (request : Request) : Draft where
  program := some request.program
  config := request.config
  rate := request.rate.map UInt32.toNat
  seed := request.seed.map UInt64.toNat
  scale := request.scale.map UInt32.toNat
  modern := request.modern
  disassemble := request.disassemble

lemma nodup_wishes (request : Request) : (request.wishes.map Wish.name?).Nodup := by
  -- Each setting and switch is either asked for or not.
  obtain ⟨program, config, rate, seed, scale, modern, disassemble⟩ := request
  cases config <;> cases rate <;> cases seed <;> cases scale <;> cases modern <;>
    cases disassemble <;> simp [wishes, Wish.name?]

lemma foldl_wishes (request : Request) :
    request.wishes.foldl Draft.grant Draft.empty = request.draft := by
  obtain ⟨program, config, rate, seed, scale, modern, disassemble⟩ := request
  cases config <;> cases rate <;> cases seed <;> cases scale <;> cases modern <;>
    cases disassemble <;> rfl

lemma finish_of_holds {p : Progress} {request : Request} (h : p.Holds request.draft) :
    p.finish = .ok request.arguments := by
  have hscale :
      UInt32.ofNat ((request.scale.map UInt32.toNat).getD 10) = request.scale.getD 10 := by
    cases request.scale <;> simp
  simp [Progress.finish, h.settled, draft, arguments, Function.comp_def, hscale]

/-- Whoever asks for the same is understood in the same way. -/
lemma parse_of_asked {request : Request} {line : List String} (h : request.Asked line) :
    Arguments.parse line = .ok request.arguments := by
  obtain ⟨wishes, pieces, hperm, hspells, rfl⟩ := h
  have hnodup : (wishes.map Wish.name?).Nodup :=
    (hperm.map Wish.name?).nodup_iff.2 request.nodup_wishes
  have hempty : ∀ wish ∈ wishes, Draft.empty.holds wish.name? = false := by
    intro wish _
    cases wish <;> rfl
  obtain ⟨p, htake, hp⟩ :=
    Progress.exists_takeAll_of_forall₂ hspells Progress.holds_start hempty hnodup
  rw [Draft.foldl_grant_of_perm hperm hnodup, foldl_wishes] at hp
  rw [Arguments.parse, htake]
  exact finish_of_holds hp

end Request

end CommandLine

end ChipVm
