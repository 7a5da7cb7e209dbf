import Chip8.Yaml.Token

/-! # Reading tokens

One function per kind of token, and the choice between them by the characters at the reading
position.
-/

namespace Chip8.Yaml

open Text

namespace TokenStep

/-- The end of the text closes all block collections. -/
def streamEnd : TokenStep Unit := do
  unwind (-1)
  dropPending
  emit .streamEnd

def directive : TokenStep Unit := do
  unwind (-1)
  dropPending
  allowKey false
  let (d, c) ← readDirective ((← cursor).advance 1)
  moveTo c
  emit (.directive d)

def documentMarker (t : Token) : TokenStep Unit := do
  unwind (-1)
  dropPending
  allowKey false
  skip 3
  emit t

/-- The start of a flow collection, which may itself be a key. -/
def openFlow (t : Token) : TokenStep Unit := do
  notePending
  modify fun s => { s with flowLevel := s.flowLevel + 1 }
  allowKey true
  skip 1
  emit t

def closeFlow (t : Token) : TokenStep Unit := do
  dropPending
  if !(← inFlow) then refuse
  modify fun s => { s with flowLevel := s.flowLevel - 1 }
  allowKey false
  skip 1
  emit t

/-- A comma between two entries of a flow collection. -/
def flowEntry : TokenStep Unit := do
  allowKey true
  dropPending
  skip 1
  emit .flowEntry

/-- A hyphen before an entry of a sequence; the first one opens the sequence. -/
def blockEntry : TokenStep Unit := do
  if !(← inFlow) then
    if !(← get).keyAllowed then refuse
    if ← openBlock (← cursor).column then emit .blockSequenceStart
  allowKey true
  dropPending
  skip 1
  emit .blockEntry

/-- A question mark before a key; the first one opens the mapping. -/
def explicitKey : TokenStep Unit := do
  let inFlow ← inFlow
  if !inFlow then
    if !(← get).keyAllowed then refuse
    if ← openBlock (← cursor).column then emit .blockMappingStart
  allowKey !inFlow
  dropPending
  skip 1
  emit .key

/-- A colon before a value. If a key is pending on this level, its token goes to where it began,
and the first key of a mapping opens the mapping there. -/
def value : TokenStep Unit := do
  let s ← get
  let inFlow ← inFlow
  match s.pending.lookup s.flowLevel with
  | some key =>
      set { s with pending := s.pending.filter (·.1 != s.flowLevel) }
      emitAt key.tokenNumber .key
      if !inFlow then
        if ← openBlock key.column then emitAt key.tokenNumber .blockMappingStart
      allowKey false
  | none =>
      if !inFlow then
        if !s.keyAllowed then refuse
        if ← openBlock s.cursor.column then emit .blockMappingStart
      allowKey !inFlow
      dropPending
  skip 1
  emit .value

/-- An alias, an anchor or a tag, which may begin a key. -/
def property (read : TokenStep Token) : TokenStep Unit := do
  notePending
  allowKey false
  emit (← read)

def blockScalar : TokenStep Unit := do
  allowKey true
  dropPending
  let s ← get
  let (text, c) ← readBlock s.indent s.cursor
  moveTo c
  emit (.scalar (codes text) false)

def quotedScalar : TokenStep Unit := do
  notePending
  allowKey false
  let (text, c) ← readQuoted (← cursor)
  moveTo c
  emit (.scalar text false)

/-- A plain scalar. A key may begin after it if it ended at the beginning of a line. -/
def plainScalar : TokenStep Unit := do
  notePending
  let s ← get
  let read := readPlain (0 < s.flowLevel) (s.indent + 1) s.cursor
  allowKey read.lineEnded
  moveTo read.next
  emit (.scalar (codes read.text) true)

/-- The characters that have a meaning of their own. -/
def indicators : List Char :=
  ['-', '?', ':', ',', '[', ']', '{', '}', '#', '&', '*', '!', '|', '>', '\'', '"', '%', '@',
    '\x60']

def beginsPlain (inFlow : Bool) (c : Cursor) : Bool :=
  let ch := c.peek
  !(isGap ch || ch ∈ indicators)
    || (!isGap (c.peek 1) && (ch = '-' || (!inFlow && (ch = '?' || ch = ':'))))

/-- The next token; answers whether it was the last one. -/
def next : TokenStep Bool := do
  dropStale
  toNextToken
  dropStale
  let c ← cursor
  unwind c.column
  let inFlow ← inFlow
  let ch := c.peek
  if c.rest = [] then
    streamEnd
    return true
  else
    if ch = '%' ∧ c.column = 0 then directive
    else if c.column = 0 ∧ c.atMarker ['-', '-', '-'] then documentMarker .documentStart
    else if c.column = 0 ∧ c.atMarker ['.', '.', '.'] then documentMarker .documentEnd
    else if ch = '[' then openFlow .flowSequenceStart
    else if ch = '{' then openFlow .flowMappingStart
    else if ch = ']' then closeFlow .flowSequenceEnd
    else if ch = '}' then closeFlow .flowMappingEnd
    else if ch = ',' then flowEntry
    else if ch = '-' ∧ isGap (c.peek 1) then blockEntry
    else if ch = '?' ∧ (inFlow ∨ isGap (c.peek 1)) then explicitKey
    else if ch = ':' ∧ (inFlow ∨ isGap (c.peek 1)) then value
    else if ch = '*' then property (return .alias (← readName))
    else if ch = '&' then property (return .anchor (← readName))
    else if ch = '!' then property (return .tag (← readTag))
    else if (ch = '|' ∨ ch = '>') ∧ !inFlow then blockScalar
    else if ch = '\'' ∨ ch = '"' then quotedScalar
    else if beginsPlain inFlow c then plainScalar
    else refuse
    return false

end TokenStep

structure Tokens where
  tokens : List Token
  /-- Why there are no more tokens, where the last one is not the end of the text. -/
  ending : Problem

namespace TokenReading

/-- The tokens that are certain. From the first key that is still pending on, a token might yet
come between them. -/
def certain (s : TokenReading) : List Token :=
  let open? := s.pending.filterMap fun entry =>
    if s.isStale entry.2 then none else some entry.2.tokenNumber
  s.tokens.toList.take (open?.foldl min s.tokens.size)

/-- Tokens up to the last one, or up to the problem that comes first: one of the text, or the end of
what is seen of the source. Every round but the last reads at least one character. -/
def readAll (source : Source) : Nat → TokenReading → Tokens
  | 0, s => ⟨s.certain, .malformed⟩
  | fuel + 1, s =>
      match TokenStep.next.run s with
      | .error misreading => ⟨s.certain, source.problemAt misreading.index misreading.problem⟩
      | .ok (isLast, next) =>
          match source.ending, next.cursor.rest with
          | some problem, [] => ⟨s.certain, problem⟩
          | _, _ =>
              if isLast then ⟨next.tokens.toList, .malformed⟩ else readAll source fuel next

end TokenReading

def Source.tokens (source : Source) : Tokens :=
  TokenReading.readAll source (source.text.length + 1)
    ⟨.start source.text, #[], 0, -1, [], true, []⟩

end Chip8.Yaml
