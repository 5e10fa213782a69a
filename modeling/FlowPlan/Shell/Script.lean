/-!
# Scripts

A script is a sequence of pipelines. Each runs always, after a success or after a failure, and joins
one or more simple commands. Words are built from quoted and plain text and from parameters.

## Main definitions

* `Script.tokens?` — words and marks.
* `Script.parse` — the pipelines of a script.
-/

namespace FlowPlan.Shell

/-- A part of a word. -/
inductive Part where
  | text (cs : List Char)
  /-- A parameter by its sign; a plain one vanishes where it is empty. -/
  | parameter (sign : Char) (inQuotes : Bool)
  deriving DecidableEq, Repr

abbrev Word := List Part

inductive Token where
  | word (w : Word)
  /-- A mark of punctuation. -/
  | mark (c : Char)
  /-- The start of a redirection of a stream. -/
  | redirect (stream : Nat)
  deriving DecidableEq, Repr

/-- Where a stream of a command goes. -/
inductive Redirection where
  | toStream (stream : Nat) (target : Word)
  | toFile (stream : Nat) (append : Bool) (file : Word)
  | fromFile (file : Word)
  deriving DecidableEq, Repr

/-- One command with its redirections. -/
structure Simple where
  words : List Word := []
  redirections : List Redirection := []
  deriving DecidableEq, Repr

/-- When a pipeline runs, by the status of what ran before. -/
inductive Condition where
  | always
  | onSuccess
  | onFailure
  deriving DecidableEq, Repr

/-- Commands joined by their streams; the status may be turned around. -/
structure Pipeline where
  condition : Condition
  negated : Bool
  commands : List Simple
  deriving DecidableEq, Repr

namespace Script

/-! ## Words and marks -/

inductive Quoting where
  | plain
  | single
  | double
  deriving DecidableEq, Repr

/-- What has been read: the word in progress and the tokens before it, each backwards. -/
structure Reading where
  quoting : Quoting := .plain
  escaped : Bool := false
  parameter : Bool := false
  comment : Bool := false
  word : Option (List Part) := none
  tokens : List Token := []

namespace Reading

def addPart (r : Reading) (p : Part) : Reading := { r with word := some (p :: r.word.getD []) }

def addChar (r : Reading) (c : Char) : Reading :=
  match r.word with
  | some (.text cs :: ps) => { r with word := some (.text (cs ++ [c]) :: ps) }
  | _ => r.addPart (.text [c])

/-- A word begins or goes on here, even if nothing is added to it. -/
def openWord (r : Reading) (quoting : Quoting) : Reading :=
  { r with quoting := quoting, word := some (r.word.getD []) }

def endWord (r : Reading) : Reading :=
  match r.word with
  | some ps => { r with word := none, tokens := .word ps.reverse :: r.tokens }
  | none => r

def addToken (r : Reading) (t : Token) : Reading :=
  let r := r.endWord
  { r with tokens := t :: r.tokens }

/-- A redirection of output; a digit right before it names the stream. -/
def addRedirect (r : Reading) : Reading :=
  match r.word with
  | some [.text [c]] =>
    if c.isDigit then { r with word := none, tokens := .redirect (c.toNat - 48) :: r.tokens }
    else r.addToken (.redirect 1)
  | _ => r.addToken (.redirect 1)

/-- The signs of the parameters. -/
def isParameter (c : Char) : Bool := c.isDigit || ['$', '?', '#', '@', '*'].contains c

def plainChar (r : Reading) (c : Char) : Reading :=
  if c = '\'' then r.openWord .single
  else if c = '"' then r.openWord .double
  else if c = '\\' then { r with escaped := true }
  else if c = '$' then { r with parameter := true }
  else if c = ' ' || c = '\t' then r.endWord
  else if c = '#' && r.word.isNone then { r with comment := true }
  else if c = '>' then
    match r.word, r.tokens with
    | none, .redirect n :: rest => { r with tokens := .mark '>' :: .redirect n :: rest }
    | _, _ => r.addRedirect
  else if [';', '&', '|', '\n', '<'].contains c then r.addToken (.mark c)
  else r.addChar c

def doubleChar (r : Reading) (c : Char) : Reading :=
  if c = '"' then { r with quoting := .plain }
  else if c = '\\' then { r with escaped := true }
  else if c = '$' then { r with parameter := true }
  else r.addChar c

/-- Read one character outside of comments, escapes and parameters. -/
def ordinaryChar (r : Reading) (c : Char) : Reading :=
  match r.quoting with
  | .plain => r.plainChar c
  | .double => r.doubleChar c
  | .single => if c = '\'' then { r with quoting := .plain } else r.addChar c

/-- Inside double quotes a backslash stays before an ordinary character. -/
def escapedChar (r : Reading) (c : Char) : Reading :=
  let r := { r with escaped := false }
  if c = '\n' then r
  else if r.quoting = .double && !(['$', '"', '\\', '\x60'].contains c) then (r.addChar '\\').addChar c
  else r.addChar c

def parameterChar (r : Reading) (c : Char) : Reading :=
  let r := { r with parameter := false }
  if isParameter c then r.addPart (.parameter c (r.quoting ≠ .plain))
  else (r.addChar '$').ordinaryChar c

def char (r : Reading) (c : Char) : Reading :=
  if r.comment then (if c = '\n' then { r with comment := false }.addToken (.mark c) else r)
  else if r.escaped then r.escapedChar c
  else if r.parameter then r.parameterChar c
  else r.ordinaryChar c

/-- The end of the script closes the word in progress. -/
def finish (r : Reading) : Reading :=
  let r := if r.escaped then r.addChar '\\' else r
  (if r.parameter then r.addChar '$' else r).endWord

end Reading

/-- The words and marks of a script; there are none if a quotation is left open. -/
def tokens? (script : List Char) : Option (List Token) :=
  let r := (script.foldl Reading.char {}).finish
  if r.quoting = .plain then some r.tokens.reverse else none

/-! ## Pipelines -/

/-- The pipelines read so far, and the one in progress. -/
structure Parsing where
  done : List Pipeline := []
  condition : Condition := .always
  negated : Bool := false
  before : List Simple := []
  current : Simple := {}

namespace Parsing

def addWord (p : Parsing) (w : Word) : Parsing :=
  if w = [.text ['!']] && p.before.isEmpty && p.current = {} then { p with negated := !p.negated }
  else { p with current := { p.current with words := p.current.words ++ [w] } }

def addRedirection (p : Parsing) (r : Redirection) : Parsing :=
  { p with current := { p.current with redirections := p.current.redirections ++ [r] } }

/-- Nothing has been read of the pipeline in progress. -/
def isFresh (p : Parsing) : Bool := p.before.isEmpty && p.current = {}

/-- End the pipeline in progress; the next one runs under a condition. -/
def endPipeline (p : Parsing) (next : Condition) : Parsing :=
  { done := p.done ++ [⟨p.condition, p.negated, p.before ++ [p.current]⟩], condition := next }

/-- Hand the output of the command in progress to the next one. -/
def endCommand (p : Parsing) : Parsing :=
  { p with before := p.before ++ [p.current], current := {} }

end Parsing

/-- The name of a mark in messages. -/
def markName : List Char → String
  | ['\n'] => "newline"
  | cs => "\"" ++ String.ofList cs ++ "\""

/-- A mark at a place where a command should stand. -/
def unexpected (mark : String) : Except String α := .error s!"{mark} unexpected"

/-- Read pipelines; fails with the complaint about a mark out of place. -/
def pipelines (p : Parsing) : List Token → Except String (List Pipeline)
  | [] =>
    if !p.isFresh then .ok (p.endPipeline .always).done
    else if p.condition = .always then .ok p.done
    else unexpected "end of file"
  | .mark '&' :: .mark '&' :: ts =>
    if p.isFresh then unexpected (markName ['&', '&']) else pipelines (p.endPipeline .onSuccess) ts
  | .mark '|' :: .mark '|' :: ts =>
    if p.isFresh then unexpected (markName ['|', '|']) else pipelines (p.endPipeline .onFailure) ts
  | .mark '|' :: ts =>
    if p.current = {} then unexpected (markName ['|']) else pipelines p.endCommand ts
  | .mark '\n' :: ts => pipelines (if p.isFresh then p else p.endPipeline .always) ts
  | .mark '<' :: .word w :: ts => pipelines (p.addRedirection (.fromFile w)) ts
  | .mark c :: ts =>
    if p.isFresh then unexpected (markName [c]) else pipelines (p.endPipeline .always) ts
  | .redirect n :: .mark '&' :: .word w :: ts => pipelines (p.addRedirection (.toStream n w)) ts
  | .redirect n :: .mark '>' :: .word w :: ts => pipelines (p.addRedirection (.toFile n true w)) ts
  | .redirect n :: .word w :: ts => pipelines (p.addRedirection (.toFile n false w)) ts
  | .redirect _ :: .mark c :: _ => unexpected (markName [c])
  | .redirect _ :: _ => unexpected "end of file"
  | .word w :: ts => pipelines (p.addWord w) ts

/-- Read a script; fails with a complaint. -/
def parse (script : String) : Except String (List Pipeline) :=
  match tokens? script.toList with
  | none => .error "Unterminated quoted string"
  | some ts => pipelines {} ts

end Script

end FlowPlan.Shell
