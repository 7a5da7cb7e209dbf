import Chip8.Yaml.Block
import Chip8.Yaml.Plain
import Chip8.Yaml.Quoted

/-! # Tokens

A document as a list of tokens. Indentation becomes start and end tokens of block collections, and
a key that is only recognised by the colon after it gets its token where it began.
-/

namespace Chip8.Yaml

open Text

/-- A tag as written: a handle that stands for a prefix, if there is one, and the rest. -/
structure TagName where
  handle : Option String
  suffix : String
deriving DecidableEq, Repr

inductive Directive where
  | version (major minor : Nat)
  | tag (handle tagPrefix : String)
  | other
deriving DecidableEq, Repr

inductive Token where
  | directive (d : Directive)
  | documentStart
  | documentEnd
  | streamEnd
  | blockSequenceStart
  | blockMappingStart
  | blockEnd
  | flowSequenceStart
  | flowSequenceEnd
  | flowMappingStart
  | flowMappingEnd
  | flowEntry
  | blockEntry
  | key
  | value
  | alias (name : String)
  | anchor (name : String)
  | tag (name : TagName)
  | scalar (text : CodeText) (plain : Bool)
deriving DecidableEq, Repr

structure PendingKey where
  /-- The number of tokens before the key. -/
  tokenNumber : Nat
  /-- Whether only a key may stand here. -/
  required : Bool
  index : Nat
  line : Nat
  column : Nat

structure TokenReading where
  cursor : Cursor
  tokens : Array Token
  /-- The number of flow collections that are open. -/
  flowLevel : Nat
  /-- The column of the innermost block collection, -1 outside of all. -/
  indent : Int
  /-- The columns of the block collections around it. -/
  outer : List Int
  /-- Whether a key may begin here. -/
  keyAllowed : Bool
  /-- The pending key of each open flow level. -/
  pending : List (Nat × PendingKey)

/-- Whether a pending key began on an earlier line or too far back. -/
def TokenReading.isStale (s : TokenReading) (key : PendingKey) : Bool :=
  key.line != s.cursor.line || decide (1024 < s.cursor.index - key.index)

abbrev TokenStep := StateT TokenReading (Except Misreading)

namespace TokenStep

def cursor : TokenStep Cursor := return (← get).cursor

def refuse {α : Type} : TokenStep α := do (← cursor).refuse

/-- Go on at another position. -/
def moveTo (c : Cursor) : TokenStep Unit := modify fun s => { s with cursor := c }

/-- Go on after some characters. -/
def skip (n : Nat) : TokenStep Unit := modify fun s => { s with cursor := s.cursor.advance n }

def emit (t : Token) : TokenStep Unit := modify fun s => { s with tokens := s.tokens.push t }

/-- Put a token before the tokens from a number on. -/
def emitAt (number : Nat) (t : Token) : TokenStep Unit :=
  modify fun s => { s with tokens := s.tokens.insertIdxIfInBounds number t }

/-- Say whether a key may begin here. -/
def allowKey (allowed : Bool) : TokenStep Unit := modify fun s => { s with keyAllowed := allowed }

def inFlow : TokenStep Bool := return 0 < (← get).flowLevel

/-- Forget the pending key of the current flow level; a required one must not be forgotten. -/
def dropPending : TokenStep Unit := do
  let s ← get
  match s.pending.lookup s.flowLevel with
  | some key =>
      if key.required then refuse
      set { s with pending := s.pending.filter (·.1 != s.flowLevel) }
  | none => pure ()

/-- Forget the pending keys that began on an earlier line or too far back. -/
def dropStale : TokenStep Unit := do
  let s ← get
  if s.pending.any fun entry => s.isStale entry.2 && entry.2.required then refuse
  set { s with pending := s.pending.filter fun entry => !s.isStale entry.2 }

/-- Note that a key may begin here. -/
def notePending : TokenStep Unit := do
  let s ← get
  if s.keyAllowed then
    dropPending
    let required := s.flowLevel = 0 && decide (s.indent = s.cursor.column)
    let key : PendingKey :=
      ⟨s.tokens.size, required, s.cursor.index, s.cursor.line, s.cursor.column⟩
    modify fun s => { s with pending := (s.flowLevel, key) :: s.pending }

/-- Close the block collections that are indented more than a column. -/
def unwind (column : Int) : TokenStep Unit := do
  let s ← get
  if s.flowLevel = 0 then
    let rec close : Nat → TokenReading → TokenReading
      | 0, s => s
      | fuel + 1, s =>
          if column < s.indent then
            close fuel { s with
              indent := s.outer.headD (-1), outer := s.outer.tail
              tokens := s.tokens.push .blockEnd }
          else s
    set (close (s.outer.length + 1) s)

/-- Open a block collection at a column unless one is open there; answers whether it did. -/
def openBlock (column : Nat) : TokenStep Bool := do
  let s ← get
  if s.indent < column then
    set { s with indent := (column : Int), outer := s.indent :: s.outer }
    return true
  else return false

/-- Skip blanks, comments and line ends. Outside of flow collections a key may begin on a new
line. -/
def toNextToken : TokenStep Unit := do
  let start ← cursor
  if start.index = 0 ∧ start.peek = '\uFEFF' then skip 1
  let inFlow ← inFlow
  let rec go : Nat → Cursor → Bool → Cursor × Bool
    | 0, c, lineEnded => (c, lineEnded)
    | fuel + 1, c, lineEnded =>
        let c := c.skipBlanks.skipComment
        match c.takeBreak? with
        | some (_, c) => go fuel c true
        | none => (c, lineEnded)
  let c ← cursor
  let (c, lineEnded) := go c.rounds c false
  moveTo c
  if lineEnded && !inFlow then allowKey true

/-- The name after an anchor or alias indicator. -/
def readName : TokenStep String := do
  let (name, c) := ((← cursor).advance 1).takeWhile isNameChar
  let mayFollow := fun ch => isGap ch || ch ∈ ['?', ':', ',', ']', '}', '%', '@', '\x60']
  if name = [] ∨ !mayFollow c.peek then c.refuse
  moveTo c
  return String.ofList name

/-- The bytes of escapes of two hexadecimal digits after percent signs. -/
def readUriBytes : Nat → Cursor → List UInt8 → Reads (List UInt8 × Cursor)
  | 0, c, bytes => .ok (bytes, c)
  | fuel + 1, c, bytes =>
      if c.peek = '%' then
        let digits := ((c.advance 1).rest.take 2).takeWhile fun ch =>
          (Number.digitIn 16 ch).isSome
        if digits.length = 2 then
          readUriBytes fuel (c.advance 3)
            (bytes ++ [UInt8.ofNat (Number.valueOf 16 digits)])
        else c.refuse (1 + digits.length)
      else .ok (bytes, c)

/-- Whether a character may stand in the suffix of a tag. -/
def isUriChar (c : Char) : Bool :=
  c.isAlphanum || c ∈ "-;/?:@&=+$,_.!~*'()[]%".toList

/-- The suffix of a tag, with its escapes resolved. -/
def readUri (c : Cursor) : Reads (String × Cursor) :=
  go c.rounds c []
where
  go : Nat → Cursor → List Char → Reads (String × Cursor)
    | 0, c, _ => c.refuse
    | fuel + 1, c, text =>
        if c.peek = '%' then
          match readUriBytes c.rounds c [] with
          | .error problem => .error problem
          | .ok (bytes, c) =>
              match Utf8.decodeFrom true 0 [] bytes with
              | .ok (chars, _) => go fuel c (text ++ chars.reverse)
              | .error _ => c.refuse
        else
          let (run, c) := c.takeWhile fun ch => isUriChar ch && ch ≠ '%'
          if c.peek = '%' ∧ run ≠ [] then go fuel c (text ++ run)
          else if text ++ run = [] then c.refuse
          else .ok (String.ofList (text ++ run), c)

/-- The handle of a tag: an exclamation mark, alone or closing a name. -/
def readHandle (c : Cursor) : Reads (String × Cursor) :=
  if c.peek ≠ '!' then c.refuse
  else
    let (name, after) := (c.advance 1).takeWhile isNameChar
    if name = [] ∧ after.peek = ' ' then .ok ("!", after)
    else if after.peek = '!' then
      .ok (String.ofList ('!' :: name ++ ['!']), after.advance 1)
    else after.refuse

/-- Whether a blank or the end of a line stands here. -/
def endsWord (c : Cursor) : Bool := c.peek = ' ' || isLineEnd c.peek

def readTag : TokenStep TagName := do
  let c ← cursor
  let next := c.peek 1
  let (name, c) : TagName × Cursor ←
    if next = '<' then do
      let (suffix, c) ← readUri (c.advance 2)
      if c.peek ≠ '>' then c.refuse
      pure (⟨none, suffix⟩, c.advance 1)
    else if isGap next then pure (⟨none, "!"⟩, c.advance 1)
    else do
      let word := (c.advance 1).rest.takeWhile fun ch => !(ch = ' ' || isBreak ch)
      let (handle, c) ← if '!' ∈ word then readHandle c else pure ("!", c.advance 1)
      let (suffix, c) ← readUri c
      pure (⟨some handle, suffix⟩, c)
  if !endsWord c then c.refuse
  moveTo c
  return name

/-- A version number. One with more digits than integers may have is a problem of its own. -/
def readVersionNumber (c : Cursor) : Reads (Nat × Cursor) :=
  let (digits, after) := c.takeWhile Number.isBasicDigit
  if digits = [] then c.refuse
  else if Number.maxDecimalDigits < digits.length then
    .error ⟨.scalar (.number (.tooManyDigits digits.length)), after.index⟩
  else .ok (Number.valueOf 10 digits, after)

def readDirective (c : Cursor) : Reads (Directive × Cursor) := do
  let (name, c) := c.takeWhile isNameChar
  if name = [] ∨ !endsWord c then c.refuse
  let (directive, c) : Directive × Cursor ←
    if name = "YAML".toList then do
      let (major, c) ← readVersionNumber c.skipBlanks
      if c.peek ≠ '.' then c.refuse
      let (minor, c) ← readVersionNumber (c.advance 1)
      if !endsWord c then c.refuse
      pure (.version major minor, c)
    else if name = "TAG".toList then do
      let (handle, c) ← readHandle c.skipBlanks
      if c.peek ≠ ' ' then c.refuse
      let (tagPrefix, c) ← readUri c.skipBlanks
      if !endsWord c then c.refuse
      pure (.tag handle tagPrefix, c)
    else pure (.other, c.skipWhile fun ch => !isBreak ch)
  return (directive, ← endHeaderLine c)

end TokenStep

end Chip8.Yaml
