/-!
Glob patterns over paths: `?` for any character, `*` for any run of characters, `**` as a whole
segment for any run of segments, and `[…]` for a set of characters.
-/

namespace DebugAdapter.Path.Glob

inductive Range where
  | single (c : Char)
  | span (low high : Char)
  deriving DecidableEq, Repr

inductive Token where
  | char (c : Char)
  | anyChar
  | anyRun
  | anySegments
  | within (ranges : List Range)
  | except (ranges : List Range)
  deriving DecidableEq, Repr

abbrev Pattern := List Token

inductive Problem where
  | wildcards
  | recursiveWildcards
  | range
  deriving DecidableEq, Repr

structure Fault where
  position : Nat
  problem : Problem
  deriving DecidableEq, Repr

def Problem.text : Problem → String
  | .wildcards => "wildcards are either regular `*` or recursive `**`"
  | .recursiveWildcards => "recursive wildcards must form a single path component"
  | .range => "invalid range pattern"

def Fault.message (fault : Fault) : String :=
  "Pattern syntax error near position " ++ toString fault.position ++ ": " ++ fault.problem.text

def rangesOf : List Char → List Range
  | low :: '-' :: high :: rest => .span low high :: rangesOf rest
  | c :: rest => .single c :: rangesOf rest
  | [] => []

def splitBracket? (text : List Char) : Option (List Char × List Char) :=
  match text.dropWhile (· ≠ ']') with
  | _ :: rest => some (text.takeWhile (· ≠ ']'), rest)
  | [] => none

/-- Reads a set after its opening bracket. Its first character is part of the set, even a `]`. -/
def readSet? : List Char → Option (Token × List Char)
  | '!' :: first :: rest =>
    (splitBracket? rest).map fun (more, rest) => (.except (rangesOf (first :: more)), rest)
  | ['!'] => none
  | first :: rest =>
    (splitBracket? rest).map fun (more, rest) => (.within (rangesOf (first :: more)), rest)
  | [] => none

/-- Adds `**`, which repeats nothing: a second one in a row is dropped after another token. -/
def pushSegments (tokens : List Token) : List Token :=
  match tokens with
  | .anySegments :: _ :: _ => tokens
  | _ => .anySegments :: tokens

/-- Reads the pattern from position `at`; `before` is the character there before, `tokens` are the
tokens read so far in reverse. -/
def compileFrom (total : Nat) : Nat → Option Char → List Token → List Char → Except Fault Pattern
  | 0, _, tokens, _ => .ok tokens.reverse
  | fuel + 1, before, tokens, text =>
    let here := total - text.length
    match text with
    | [] => .ok tokens.reverse
    | '?' :: rest => compileFrom total fuel (some '?') (.anyChar :: tokens) rest
    | '*' :: rest =>
      let stars := 1 + (rest.takeWhile (· = '*')).length
      let after := rest.dropWhile (· = '*')
      if 2 < stars then .error ⟨here + 2, .wildcards⟩
      else if stars = 1 then compileFrom total fuel (some '*') (.anyRun :: tokens) after
      else if before = none ∨ before = some '/' then
        match after with
        | [] => compileFrom total fuel (some '*') (pushSegments tokens) []
        | '/' :: rest => compileFrom total fuel (some '/') (pushSegments tokens) rest
        | _ => .error ⟨here + 2, .recursiveWildcards⟩
      else .error ⟨here - 1, .recursiveWildcards⟩
    | '[' :: rest =>
      match readSet? rest with
      | some (token, rest) => compileFrom total fuel (some ']') (token :: tokens) rest
      | none => .error ⟨here, .range⟩
    | c :: rest => compileFrom total fuel (some c) (.char c :: tokens) rest

/-- Every round of reading consumes a character, so the length of the pattern bounds them. -/
def compile (text : List Char) : Except Fault Pattern :=
  compileFrom text.length (text.length + 1) none [] text

def Range.holds (c : Char) : Range → Bool
  | .single d => c = d
  | .span low high => low ≤ c && c ≤ high

def Token.accepts (c : Char) : Token → Bool
  | .char d => c = d
  | .within ranges => ranges.any (·.holds c)
  | .except ranges => !ranges.any (·.holds c)
  | _ => true

/-- Whether a text matches, fails at this place, or is too short for what is left of the pattern;
after the last, no run of characters need be tried longer. -/
inductive Verdict where
  | matched
  | missed
  | exhausted
  deriving DecidableEq, Repr

/-- Tries the rest of the pattern after each longer run; a run of segments ends after a slash or
with the text. -/
def sweep (segments : Bool) (rest : Bool → List Char → Verdict) : Bool → List Char → Verdict
  | afterSlash, [] => rest afterSlash []
  | _, c :: text =>
    let slash := c = '/'
    if segments && !slash then sweep segments rest slash text
    else
      match rest slash text with
      | .missed => sweep segments rest slash text
      | verdict => verdict

def matchFrom : Pattern → Bool → List Char → Verdict
  | [], _, text => if text.isEmpty then .matched else .missed
  | .anyRun :: tokens, afterSlash, text =>
    match matchFrom tokens afterSlash text with
    | .missed => sweep false (matchFrom tokens) afterSlash text
    | verdict => verdict
  | .anySegments :: tokens, afterSlash, text =>
    match matchFrom tokens afterSlash text with
    | .missed => sweep true (matchFrom tokens) afterSlash text
    | verdict => verdict
  | token :: tokens, _, text =>
    match text with
    | [] => .exhausted
    | c :: rest => if token.accepts c then matchFrom tokens (c = '/') rest else .missed

def Pattern.matches (pattern : Pattern) (text : List Char) : Bool :=
  matchFrom pattern true text = .matched

end DebugAdapter.Path.Glob
