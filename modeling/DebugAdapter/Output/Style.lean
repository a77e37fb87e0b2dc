import DebugAdapter.Json.Basic

/-!
Text styles and the codes that select them.
-/

namespace DebugAdapter.Output

inductive Color where
  | black
  | red
  | green
  | yellow
  | blue
  | magenta
  | cyan
  | white
  deriving DecidableEq, Repr

structure Style where
  foreground : Option Color := none
  background : Option Color := none
  bright : Bool := false
  underline : Bool := false
  negative : Bool := false
  deriving DecidableEq, Repr, Inhabited

def Color.ofIndex? : Nat → Option Color
  | 0 => some .black
  | 1 => some .red
  | 2 => some .green
  | 3 => some .yellow
  | 4 => some .blue
  | 5 => some .magenta
  | 6 => some .cyan
  | 7 => some .white
  | _ => none

def Color.name : Color → String
  | .black => "black"
  | .red => "red"
  | .green => "green"
  | .yellow => "yellow"
  | .blue => "blue"
  | .magenta => "magenta"
  | .cyan => "cyan"
  | .white => "white"

namespace Style

/-- The effect of one code; codes without a meaning here have none. -/
def select (style : Style) (code : Nat) : Style :=
  if code = 0 then {}
  else if code = 1 then { style with bright := true }
  else if code = 4 then { style with underline := true }
  else if code = 7 then { style with negative := true }
  else if code = 22 then { style with bright := false }
  else if code = 24 then { style with underline := false }
  else if code = 27 then { style with negative := false }
  else if 30 ≤ code ∧ code ≤ 37 then { style with foreground := Color.ofIndex? (code - 30) }
  else if code = 39 then { style with foreground := none }
  else if 40 ≤ code ∧ code ≤ 47 then { style with background := Color.ofIndex? (code - 40) }
  else if code = 49 then { style with background := none }
  else if 90 ≤ code ∧ code ≤ 97 then
    { style with foreground := Color.ofIndex? (code - 90), bright := true }
  else if 100 ≤ code ∧ code ≤ 107 then { style with background := Color.ofIndex? (code - 100) }
  else style

def selectAll (style : Style) (codes : List Nat) : Style :=
  codes.foldl select style

/-- The attributes that are set; plain text has none to show. -/
def toJson? (style : Style) : Option Json :=
  if style = {} then none
  else
    some <| .object [("style", Json.ofMembers <|
      Json.member? "foreground" (fun color => .string color.name) style.foreground
        ++ Json.member? "background" (fun color => .string color.name) style.background
        ++ (if style.bright then [("bright", .bool true)] else [])
        ++ (if style.underline then [("underline", .bool true)] else [])
        ++ (if style.negative then [("negative", .bool true)] else []))]

end Style

end DebugAdapter.Output
