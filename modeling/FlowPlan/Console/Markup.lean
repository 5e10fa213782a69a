import FlowPlan.Fault

/-!
# Console markup

A message for the console may hold tags in square brackets, which set a style and are not shown. A
tag starts with a lower-case letter or one of three signs; a slash closes a style. A backslash before
a bracket keeps it as it is. These are the rules of the console library that the program writes with; they
belong to the command line, and no build depends on them.

## Main definitions

* `Markup.pieces` — a message as text and tags.
* `Markup.plain` — the text that is shown.
-/

namespace FlowPlan.Markup

inductive Piece where
  | text (cs : List Char)
  | tag (name : List Char)
  deriving DecidableEq, Repr

/-! ## Tags -/

def startsTag (c : Char) : Bool := ('a' ≤ c && c ≤ 'z') || c = '#' || c = '/' || c = '@'

/-- The inside of a tag and what follows it, read behind an opening bracket. -/
def tag? (cs : List Char) : Option (List Char × List Char) :=
  let inside := cs.takeWhile fun c => c ≠ '[' && c ≠ ']'
  match inside, cs.drop inside.length with
  | c :: _, ']' :: rest => if startsTag c then some (inside, rest) else none
  | _, _ => none

/-- Add a character to the text in front. -/
def addChar (c : Char) : List Piece → List Piece
  | .text cs :: ps => .text (c :: cs) :: ps
  | ps => .text [c] :: ps

def addText (cs : List Char) (ps : List Piece) : List Piece := cs.foldr addChar ps

/-- Read a message, one step for each character at most. Two backslashes before a tag stand for one; an
odd one keeps the tag as text. -/
def piecesOf : Nat → List Char → List Piece
  | 0, cs => if cs.isEmpty then [] else [.text cs]
  | _, [] => []
  | n + 1, cs =>
    let slashes := cs.takeWhile (· = '\\')
    match cs.drop slashes.length with
    | '[' :: rest =>
      match tag? rest with
      | some (inside, after) =>
        let kept := List.replicate (slashes.length / 2) '\\'
        if slashes.length % 2 = 1 then
          addText (kept ++ '[' :: inside ++ [']']) (piecesOf n after)
        else addText kept (.tag inside :: piecesOf n after)
      | none => addText (slashes.dropLast ++ ['[']) (piecesOf n rest)
    | c :: rest => addText (slashes ++ [c]) (piecesOf n rest)
    | [] => [.text slashes]

def pieces (message : List Char) : List Piece := piecesOf message.length message

/-! ## Styles -/

/-- The name of a style: what stands before an equals sign, in small letters without blanks around. -/
def styleName (cs : List Char) : List Char :=
  let name := (cs.takeWhile (· ≠ '=')).map Char.toLower
  ((name.dropWhile (· = ' ')).reverse.dropWhile (· = ' ')).reverse

/-- A style is closed that is not open. -/
def unopened (name : List Char) : Attempt α :=
  let tag := String.ofList name
  .error (.raised "MarkupError" [.str s!"closing tag '[{tag}]' has nothing to close"])

/-- Leave out the tags; `styles` are the open styles, the latest first. -/
def show? (styles : List (List Char)) : List Piece → Attempt (List Char)
  | [] => .ok []
  | .text cs :: ps => (show? styles ps).map (cs ++ ·)
  | .tag ('/' :: cs) :: ps =>
    match styleName cs, styles with
    | [], _ :: rest => show? rest ps
    | [], [] => unopened ['/']
    | name, styles =>
      if styles.contains name then show? (styles.erase name) ps else unopened ('/' :: cs)
  | .tag cs :: ps => show? (styleName cs :: styles) ps

/-- Control characters that a console leaves out. -/
def isDropped (c : Char) : Bool := [7, 8, 11, 12, 13].contains c.toNat

/-- The text of a message as the console shows it. -/
def plain (message : String) : Attempt String := do
  let shown ← show? [] (pieces message.toList)
  return String.ofList (shown.filter (!isDropped ·))

end FlowPlan.Markup
