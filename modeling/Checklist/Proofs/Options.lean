import Checklist.Invocation

namespace Checklist.Invocation

/-- The options that end the reading, each with the command that it asks for. -/
def requests : List (Text × Command) := [
  ("--help".toList, .help), ("-h".toList, .help),
  ("--version".toList, .version), ("-V".toList, .version)]

def configOptions : List Text := ["--config".toList, "-c".toList]

def lineNumberOptions : List Text := ["--line-numbers".toList, "-n".toList]

def knownOptions : List Text :=
  requests.map Prod.fst ++ configOptions ++ lineNumberOptions

/-- The empty argument, a lone hyphen and what does not start with a hyphen are no options. -/
def IsWord (t : Text) : Prop :=
  t = ['-'] ∨ t.head? ≠ some '-'

instance (t : Text) : Decidable (IsWord t) :=
  inferInstanceAs (Decidable (_ ∨ _))

structure IsUnknown (t : Text) : Prop where
  option : ¬ IsWord t
  unlisted : t ∉ knownOptions

/-- What an argument list holds, each kind of argument in its own order. -/
structure Contents where
  words : List Text
  paths : List Path
  lineNumbers : Bool
  unknown : List Text

/-- An argument list without a request for help or the version, in which every configuration option
stands before a path. The path may look like an option. -/
inductive Holds : List Text → Contents → Prop where
  | nil : Holds [] ⟨[], [], false, []⟩
  | word {t : Text} {rest words paths lineNumbers unknown} (isWord : IsWord t)
      (holds : Holds rest ⟨words, paths, lineNumbers, unknown⟩) :
      Holds (t :: rest) ⟨t :: words, paths, lineNumbers, unknown⟩
  | config {option : Text} {rest words paths lineNumbers unknown} (known : option ∈ configOptions)
      (path : Path) (holds : Holds rest ⟨words, paths, lineNumbers, unknown⟩) :
      Holds (option :: path :: rest) ⟨words, path :: paths, lineNumbers, unknown⟩
  | lineNumbers {option : Text} {rest words paths lineNumbers unknown}
      (known : option ∈ lineNumberOptions)
      (holds : Holds rest ⟨words, paths, lineNumbers, unknown⟩) :
      Holds (option :: rest) ⟨words, paths, true, unknown⟩
  | unknown {option : Text} {rest words paths lineNumbers unknown} (isUnknown : IsUnknown option)
      (holds : Holds rest ⟨words, paths, lineNumbers, unknown⟩) :
      Holds (option :: rest) ⟨words, paths, lineNumbers, option :: unknown⟩

section Step

variable {option t : Text} {path : Option Path} {lineNumbers : Bool} {words rest : List Text}

theorem ofArguments_request {request : Text × Command} (h : request ∈ requests) :
    ofArguments path lineNumbers words (request.1 :: rest) = .ok ⟨path, request.2⟩ := by
  simp only [requests, List.mem_cons, List.not_mem_nil, or_false] at h
  unfold ofArguments
  rcases h with rfl | rfl | rfl | rfl
  · rfl
  · rfl
  · rfl
  · rfl

theorem ofArguments_config (h : option ∈ configOptions) (next : Path) :
    ofArguments path lineNumbers words (option :: next :: rest) =
      ofArguments (some next) lineNumbers words rest := by
  simp only [configOptions, List.mem_cons, List.not_mem_nil, or_false] at h
  rw [ofArguments.eq_def]
  rcases h with rfl | rfl
  · rfl
  · rfl

theorem ofArguments_config_nil (h : option ∈ configOptions) :
    ofArguments path lineNumbers words [option] = .error .missingConfigPath := by
  simp only [configOptions, List.mem_cons, List.not_mem_nil, or_false] at h
  unfold ofArguments
  rcases h with rfl | rfl
  · rfl
  · rfl

theorem ofArguments_lineNumbers (h : option ∈ lineNumberOptions) :
    ofArguments path lineNumbers words (option :: rest) = ofArguments path true words rest := by
  simp only [lineNumberOptions, List.mem_cons, List.not_mem_nil, or_false] at h
  rw [ofArguments.eq_def]
  rcases h with rfl | rfl
  · rfl
  · rfl

/-- An argument that is none of the listed options is told by how it starts. -/
theorem ofArguments_unlisted (h : t ∉ knownOptions) :
    ofArguments path lineNumbers words (t :: rest) =
      if t.head? = some '-' ∧ 1 < t.length then .error (.unknownOption t)
      else ofArguments path lineNumbers (words ++ [t]) rest := by
  simp only [knownOptions, requests, configOptions, lineNumberOptions, List.map_cons, List.map_nil,
    List.mem_append, List.mem_cons, List.not_mem_nil, or_false, not_or] at h
  rw [ofArguments.eq_def]
  simp only [h, decide_false, Bool.or_self, Bool.false_eq_true, if_false, Bool.and_eq_true,
    decide_eq_true_eq]

theorem isWord_iff : IsWord t ↔ ¬ (t.head? = some '-' ∧ 1 < t.length) := by
  cases t with
  | nil => simp [IsWord]
  | cons c t =>
    cases t with
    | nil => simp [IsWord, Decidable.em]
    | cons d t => simp [IsWord]

theorem IsWord.unlisted (h : IsWord t) : t ∉ knownOptions := by
  have hoptions : ∀ option ∈ knownOptions, ¬ IsWord option := by decide
  exact fun hmem => hoptions t hmem h

theorem ofArguments_word (h : IsWord t) :
    ofArguments path lineNumbers words (t :: rest) =
      ofArguments path lineNumbers (words ++ [t]) rest := by
  rw [ofArguments_unlisted h.unlisted, if_neg (isWord_iff.mp h)]

theorem ofArguments_unknown (h : IsUnknown t) :
    ofArguments path lineNumbers words (t :: rest) = .error (.unknownOption t) := by
  rw [ofArguments_unlisted h.unlisted, if_pos]
  exact Decidable.not_not.mp fun hword => h.option (isWord_iff.mpr hword)

end Step

section Run

variable {arguments : List Text} {held : Contents}

/-- Arguments that hold an unknown option are read up to the first one. Others are read to their
end, and all that is known of them there is what they hold. -/
theorem Holds.ofArguments_append (holds : Holds arguments held) (path : Option Path)
    (lineNumbers : Bool) (words rest : List Text) :
    ofArguments path lineNumbers words (arguments ++ rest) =
      match held.unknown with
      | [] => ofArguments (held.paths.getLast?.or path) (lineNumbers || held.lineNumbers)
          (words ++ held.words) rest
      | option :: _ => .error (.unknownOption option) := by
  induction holds generalizing path lineNumbers words with
  | nil => simp
  | word isWord _ ih =>
    rw [List.cons_append, ofArguments_word isWord, ih]
    simp
  | config known next _ ih =>
    rw [List.cons_append, List.cons_append, ofArguments_config known, ih]
    simp [List.getLast?_cons]
  | lineNumbers known _ ih =>
    rw [List.cons_append, ofArguments_lineNumbers known, ih]
    simp
  | unknown isUnknown _ ih => rw [List.cons_append, ofArguments_unknown isUnknown]

theorem Holds.parse_append (holds : Holds arguments held) (rest : List Text) :
    parse (arguments ++ rest) =
      match held.unknown with
      | [] => ofArguments held.paths.getLast? held.lineNumbers held.words rest
      | option :: _ => .error (.unknownOption option) := by
  rw [parse, holds.ofArguments_append]
  simp

theorem Holds.parse_eq (holds : Holds arguments held) :
    parse arguments =
      match held.unknown with
      | [] => (Command.ofWords held.lineNumbers held.words).map (⟨held.paths.getLast?, ·⟩)
      | option :: _ => .error (.unknownOption option) := by
  have happend := holds.parse_append []
  rw [List.append_nil, ofArguments] at happend
  exact happend

theorem Holds.config_eq (holds : Holds arguments held) {invocation : Invocation}
    (h : parse arguments = .ok invocation) : invocation.config = held.paths.getLast? := by
  rw [holds.parse_eq] at h
  split at h
  · cases hcommand : Command.ofWords held.lineNumbers held.words with
    | error error =>
      rw [hcommand] at h
      cases h
    | ok command =>
      rw [hcommand] at h
      cases h
      rfl
  · cases h

/-- What an argument list means depends on its words, its configuration paths and whether it asks
for line numbers, and not on where they stand; the last path counts. A request for help or the
version ends the reading, whatever follows it. Before that, an unknown option or a configuration
option without a path is an error, and of several such errors the first one is told. -/
theorem parse_rearranged (holds : Holds arguments held) :
    (∀ other, Holds other held → parse other = parse arguments) ∧
    (∀ invocation, parse arguments = .ok invocation → invocation.config = held.paths.getLast?) ∧
    (held.unknown = [] → ∀ request ∈ requests, ∀ rest,
      parse (arguments ++ request.1 :: rest) = .ok ⟨held.paths.getLast?, request.2⟩) ∧
    (∀ option, IsUnknown option → ∀ rest,
      parse (arguments ++ option :: rest) =
        .error (.unknownOption (held.unknown.headD option))) ∧
    (∀ option ∈ configOptions,
      parse (arguments ++ [option]) =
        .error (held.unknown.head?.elim .missingConfigPath .unknownOption)) := by
  refine ⟨?_, fun _ => holds.config_eq, ?_, ?_, ?_⟩
  · intro other otherHolds
    rw [otherHolds.parse_eq, holds.parse_eq]
  · intro known request hrequest rest
    simp only [holds.parse_append, known]
    exact ofArguments_request hrequest
  · intro option isUnknown rest
    rw [holds.parse_append]
    cases held.unknown with
    | nil => exact ofArguments_unknown isUnknown
    | cons first others => rfl
  · intro option hoption
    rw [holds.parse_append]
    cases held.unknown with
    | nil => exact ofArguments_config_nil hoption
    | cons first others => rfl

/-- A toggle with its options between its words. One path looks like a request for help. -/
def scattered : List Text :=
  ["-c".toList, "--help".toList, "toggle".toList, "-n".toList, "a.todo".toList, "-n".toList,
    "--config".toList, "b.toml".toList, "1:2".toList]

/-- The same toggle with its options after its words. -/
def gathered : List Text :=
  ["toggle".toList, "a.todo".toList, "1:2".toList, "--line-numbers".toList, "-c".toList,
    "--help".toList, "-c".toList, "b.toml".toList]

def toggling : Contents :=
  ⟨["toggle".toList, "a.todo".toList, "1:2".toList], ["--help".toList, "b.toml".toList], true, []⟩

theorem parse_rearranged_scattered :
    Holds scattered toggling ∧ Holds gathered toggling ∧ parse gathered = parse scattered ∧
    parse gathered = .ok ⟨some "b.toml".toList, .toggle "a.todo".toList [⟨1, 2⟩]⟩ ∧
    ("-h".toList, .help) ∈ requests ∧
    parse (scattered ++ ["-h".toList, "--bogus".toList, "-c".toList]) =
      .ok ⟨some "b.toml".toList, .help⟩ ∧
    IsUnknown "--bogus".toList ∧
    parse (scattered ++ ["--bogus".toList, "-h".toList]) =
      .error (.unknownOption "--bogus".toList) ∧
    parse (scattered ++ ["-c".toList]) = .error .missingConfigPath := by
  have hscattered : Holds scattered toggling :=
    .config (by decide) _ <| .word (by decide) <| .lineNumbers (by decide) <| .word (by decide) <|
      .lineNumbers (by decide) <| .config (by decide) _ <| .word (by decide) .nil
  have hgathered : Holds gathered toggling :=
    .word (by decide) <| .word (by decide) <| .word (by decide) <| .lineNumbers (by decide) <|
      .config (by decide) _ <| .config (by decide) _ .nil
  have asks : ("-h".toList, Command.help) ∈ requests := by decide
  have isUnknown : IsUnknown "--bogus".toList := ⟨by decide, by decide⟩
  obtain ⟨hsame, -, hrequest, hunknown, hconfig⟩ := parse_rearranged hscattered
  exact ⟨hscattered, hgathered, hsame _ hgathered, by rfl, asks, hrequest rfl _ asks _, isUnknown,
    hunknown _ isUnknown _, hconfig _ (by decide)⟩

end Run

end Checklist.Invocation
