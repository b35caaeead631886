/-
# Settings in layers

The settings of a run come in up to three layers.  What a user asks for lies over what a file says,
if the user names one, and that over the standard settings.  Each setting is settled by itself: it
is taken from the uppermost layer that has it (`Request.Over`, `Config.given`).
-/
import Mathlib.Tactic.Lemma
import ChipVm.Proofs.CommandLine.Request
import ChipVm.Proofs.Config.Partial

namespace ChipVm

lemma Config.ofFile_of_described {files : Files} {path text : String} {members : List Member}
    (hfile : files path = .ok (textBytes text)) (h : Described members text.toList)
    (hnone : ∀ name, ¬Repeats name members) : ofFile files path = .ok (given members) := by
  have hread : ofBytes (textBytes text) = .ok (given members) := ofJson_eq_given h hnone
  simp only [ofFile, hfile, hread]

namespace CommandLine

namespace Request

/-- The configuration has the settings that are asked for, and all others from the one below. -/
structure Over (request : Request) (below config : Config) : Prop where
  rate : config.rate = request.rate.getD below.rate
  seed : config.seed = request.seed.or below.seed
  dialect : config.dialect = if request.modern then Dialect.modern else below.dialect

lemma over_override (request : Request) (below : Config) :
    request.Over below (request.arguments.override below) :=
  ⟨rfl, rfl, rfl⟩

/-- Nothing but the request and the layer below makes up a configuration. -/
lemma Over.eq_override {request : Request} {below config : Config} (h : request.Over below config) :
    config = request.arguments.override below := by
  calc
    config = ⟨config.dialect, config.rate, config.seed⟩ := rfl
    _ = request.arguments.override below := by rw [h.dialect, h.rate, h.seed]; rfl

variable {request : Request} {files : Files} {path : String}

lemma configuration_of_standard (h : request.config = none) :
    request.arguments.configuration files = .ok (request.arguments.override Config.standard) := by
  have hconfig : request.arguments.config = none := h
  simp only [Arguments.configuration, hconfig]

lemma configuration_of_file (h : request.config = some path) {file : Config}
    (hfile : Config.ofFile files path = .ok file) :
    request.arguments.configuration files = .ok (request.arguments.override file) := by
  have hconfig : request.arguments.config = some path := h
  simp only [Arguments.configuration, hconfig, hfile]

lemma configuration_of_error (h : request.config = some path) {error : ConfigError}
    (hfile : Config.ofFile files path = .error error) :
    request.arguments.configuration files = .error error := by
  have hconfig : request.arguments.config = some path := h
  simp only [Arguments.configuration, hconfig, hfile]

/-- However a request is written, it is understood in the same way, and each setting is as asked
for, else as the file says, else the standard one.  A file that gives no settings gives its error
instead, whatever else is asked for. -/
theorem requests_are_layered (request : Request) (line : List String) (files : Files)
    (h : request.Asked line) :
    Arguments.parse line = .ok request.arguments ∧
      (request.config = none →
        ∃ config, request.arguments.configuration files = .ok config ∧
          request.Over ⟨Dialect.classic, 700, none⟩ config) ∧
      ∀ path, request.config = some path →
        (∀ file, Config.ofFile files path = .ok file →
          ∃ config, request.arguments.configuration files = .ok config ∧
            request.Over file config) ∧
        (∀ members text, files path = .ok (Config.textBytes text) →
          Config.Described members text.toList → (∀ name, ¬Config.Repeats name members) →
          ∃ config, request.arguments.configuration files = .ok config ∧
            request.Over (Config.given members) config) ∧
        ∀ error, Config.ofFile files path = .error error →
          request.arguments.configuration files = .error error := by
  refine ⟨parse_of_asked h, ?_, ?_⟩
  · intro hconfig
    exact ⟨_, configuration_of_standard hconfig, over_override request Config.standard⟩
  · intro path hconfig
    refine ⟨?_, ?_, ?_⟩
    · intro file hfile
      exact ⟨_, configuration_of_file hconfig hfile, over_override request file⟩
    · intro members text htext hdescribed hnone
      have hfile := Config.ofFile_of_described htext hdescribed hnone
      exact ⟨_, configuration_of_file hconfig hfile, over_override request _⟩
    · intro error hfile
      exact configuration_of_error hconfig hfile

/-- A request for a program with a rate of its own, in the modern dialect, over a file. -/
def tuned : Request := ⟨"game.ch8", some "vip.json", some 9, none, none, true, false⟩

/-- One of the command lines that ask for it. -/
def tunedLine : List String := ["--modern", "--rate=+09", "game.ch8", "--config", "vip.json"]

/-- Each path has the same text. -/
def sameText (text : String) : Files := fun _ => .ok (Config.textBytes text)

lemma asked_tuned : tuned.Asked tunedLine := by
  have hrate : Wish.Sets .rate "+09" (.rate 9) :=
    .rate ⟨['0', '9'], .inr rfl, by simp, by simp, rfl⟩
  have hjoined : Wish.Spells (.rate 9) ["--rate=+09"] := .joined hrate
  have happart : Wish.Spells (.config "vip.json") ["--config", "vip.json"] :=
    .apart (.config (by decide)) (by decide)
  refine ⟨[.modern, .rate 9, .program "game.ch8", .config "vip.json"],
    [["--modern"], ["--rate=+09"], ["game.ch8"], ["--config", "vip.json"]], by decide, ?_, rfl⟩
  exact .cons .modern (.cons hjoined (.cons (.program (by decide) (by decide))
    (.cons happart .nil)))

theorem requests_are_layered_tuned :
    tuned.Asked tunedLine ∧ Arguments.parse tunedLine = .ok tuned.arguments ∧
      tuned.arguments.configuration (sameText Config.shuffledText)
        = .ok ⟨Dialect.modern, 9, some 7⟩ ∧
      tuned.arguments.configuration (fun _ => .error .notFound)
        = .error (.unreadable .notFound) := by
  obtain ⟨hparse, -, hfile⟩ :=
    requests_are_layered tuned tunedLine (sameText Config.shuffledText) asked_tuned
  obtain ⟨-, hdescribed, -⟩ := hfile "vip.json" rfl
  obtain ⟨-, -, hmissing⟩ :=
    requests_are_layered tuned tunedLine (fun _ => .error .notFound) asked_tuned
  obtain ⟨config, hconfig, hover⟩ := hdescribed Config.shuffled Config.shuffledText rfl
    Config.described_shuffled Config.not_repeats_shuffled
  refine ⟨asked_tuned, hparse, ?_, (hmissing "vip.json" rfl).2.2 _ rfl⟩
  rw [hconfig, hover.eq_override]
  rfl

end Request

end CommandLine

end ChipVm
