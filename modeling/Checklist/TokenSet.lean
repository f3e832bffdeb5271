import Checklist.Openers.Source
import Checklist.Text.Quoted

namespace Checklist

/-- A state a line can be in, and the token that opens a line in it. -/
structure State where
  name : Text
  token : Text
  deriving DecidableEq, Repr

/-- Why a list of states and a comment marker cannot be told apart at the start of a line, or cannot
be searched for. -/
inductive TokenError
  | noStates
  | emptyToken (name : Text)
  | invalidToken (token : Text)
  | duplicateToken (token : Text)
  | overlappingTokens (shorter longer : Text)
  | pattern (reason : Text)
  deriving DecidableEq, Repr

namespace TokenError

def message : TokenError → Text
  | noStates => "No states configured".toList
  | emptyToken name => "Empty token for state '".toList ++ name ++ "'".toList
  | invalidToken token =>
    "Token ".toList ++ token.quoted ++
      " must not start with whitespace or contain a newline".toList
  | duplicateToken token => "Duplicate token ".toList ++ token.quoted
  | overlappingTokens shorter longer =>
    "Token ".toList ++ shorter.quoted ++ " overlaps token ".toList ++ longer.quoted
  | pattern reason => "Invalid line pattern: ".toList ++ reason

end TokenError

/-- The states of a list in order, and the marker that opens a comment line. -/
structure TokenSet where
  states : List State
  comment : Text
  deriving DecidableEq, Repr

namespace TokenSet

/-- What a line can open with: the state tokens in order, then the comment marker. -/
def literals (set : TokenSet) : List Text :=
  set.states.map State.token ++ [set.comment]

/-- The order in which a line advances: the state tokens, then the comment marker and a space. -/
def rotation (set : TokenSet) : List Text :=
  set.states.map State.token ++ [set.comment ++ [' ']]

theorem rotation_length (set : TokenSet) : set.rotation.length = set.states.length + 1 := by
  simp [rotation]

/-- The entry at a place of the rotation, counted round and round. -/
def entry (set : TokenSet) (place : Nat) : Text :=
  set.rotation.get ⟨place % set.rotation.length, Nat.mod_lt _ (by simp [rotation_length])⟩

/-- The first state whose token `literal` ends with. -/
def stateEnding (set : TokenSet) (literal : Text) : Option Nat :=
  set.states.findIdx? fun state => state.token.isSuffixOf literal

/-- The first place of the rotation whose entry `line` starts with. -/
def rotationPrefix (set : TokenSet) (line : Text) : Option Nat :=
  set.rotation.findIdx? fun entry => entry.isPrefixOf line

/-- A token must be visible at the end of an indentation, and within one line. -/
def literalError? (name literal : Text) : Option TokenError :=
  match literal with
  | [] => some (.emptyToken name)
  | c :: _ =>
    if Text.isBlank c || literal.contains '\n' || literal.contains '\r' then
      some (.invalidToken literal)
    else none

/-- The first text that equals an earlier one. -/
def firstRepeated? (earlier : List Text) : List Text → Option Text
  | [] => none
  | t :: rest => if t ∈ earlier then some t else firstRepeated? (t :: earlier) rest

/-- Two texts of which one starts the other, the shorter first. -/
def prefixOverlap? (a b : Text) : Option (Text × Text) :=
  if a.isPrefixOf b then some (a, b)
  else if b.isPrefixOf a then some (b, a)
  else none

/-- Two texts of which one ends the other, the shorter first. -/
def suffixOverlap? (a b : Text) : Option (Text × Text) :=
  if a.isSuffixOf b then some (a, b)
  else if b.isSuffixOf a then some (b, a)
  else none

def overlap? (a b : Text) : Option (Text × Text) :=
  (prefixOverlap? a b).or (suffixOverlap? a b)

/-- The first pair of texts, in order of their places, that `related?` accepts. -/
def firstPair? (related? : Text → Text → Option (Text × Text)) : List Text → Option (Text × Text)
  | [] => none
  | t :: rest => (rest.findSome? (related? t)).or (firstPair? related? rest)

/-- The first reason to refuse the set. Recognising a line needs literals of which none starts or
ends another, and advancing it needs a rotation of which no entry starts another. -/
def error? (set : TokenSet) : Option TokenError :=
  if set.states.isEmpty then some .noStates
  else
    (set.states.findSome? fun state => literalError? state.name state.token)
    |>.or (literalError? "comment".toList set.comment)
    |>.or ((firstRepeated? [] set.literals).map .duplicateToken)
    |>.or ((firstPair? overlap? set.literals).map fun (a, b) => .overlappingTokens a b)
    |>.or ((firstPair? prefixOverlap? set.rotation).map fun (a, b) => .overlappingTokens a b)

def openers (set : TokenSet) : Openers :=
  .ofLiterals (set.states.map State.token) set.comment

/-- A set that passes its checks is refused still if the engine does not compile its expression. -/
def ofStates (engine : Engine) (states : List State) (comment : Text) :
    Except TokenError TokenSet :=
  let set : TokenSet := ⟨states, comment⟩
  match set.error? with
  | some error => .error error
  | none =>
    match engine.refusal? set.openers.source with
    | some reason => .error (.pattern reason)
    | none => .ok set

def defaultComment : Text := "--".toList

def defaultStates : List State :=
  [⟨"todo".toList, "- ".toList⟩, ⟨"done".toList, "+ ".toList⟩, ⟨"outcome".toList, "-> ".toList⟩]

/-- The set used where nothing is configured. -/
def standard : TokenSet :=
  ⟨defaultStates, defaultComment⟩

theorem ofStates_default : ofStates .usual defaultStates defaultComment = .ok standard := by
  rfl

end TokenSet

end Checklist
