import Chip8.Config.Problem
import Chip8.Config.Reader
import Chip8.Dialect

/-! # Dialect switches

A dialect written as a mapping from switch names to truth values. Switches that are not given have
their canonical value.
-/

namespace Chip8.Config

open Text

/-- A switch of a dialect. -/
inductive Switch where
  | borrowFlagInverted
  | clipSprites
  | indexOverflowFlag
  | loadStoreIncrementsIndex
  | shiftUsesVy
deriving DecidableEq, Repr

namespace Switch

def all : List Switch :=
  [borrowFlagInverted, clipSprites, indexOverflowFlag, loadStoreIncrementsIndex, shiftUsesVy]

def name : Switch → String
  | borrowFlagInverted => "borrow_flag_inverted"
  | clipSprites => "clip_sprites"
  | indexOverflowFlag => "index_overflow_flag"
  | loadStoreIncrementsIndex => "load_store_increments_index"
  | shiftUsesVy => "shift_uses_vy"

def ofName? (name : String) : Option Switch := all.find? fun s => s.name == name

def ofKey? (key : Value) : Option Switch := key.name?.bind ofName?

def get (d : Dialect) : Switch → Bool
  | borrowFlagInverted => d.borrowFlagInverted
  | clipSprites => d.clipSprites
  | indexOverflowFlag => d.indexOverflowFlag
  | loadStoreIncrementsIndex => d.loadStoreIncrementsIndex
  | shiftUsesVy => d.shiftUsesVy

def set (d : Dialect) (position : Bool) : Switch → Dialect
  | borrowFlagInverted => { d with borrowFlagInverted := position }
  | clipSprites => { d with clipSprites := position }
  | indexOverflowFlag => { d with indexOverflowFlag := position }
  | loadStoreIncrementsIndex => { d with loadStoreIncrementsIndex := position }
  | shiftUsesVy => { d with shiftUsesVy := position }

@[simp] theorem ofName?_name (s : Switch) : ofName? s.name = some s := by
  cases s <;> decide

end Switch

/-- Whether a key comes before another one, or why they have no order. -/
def keyBefore (a b : Value) : Except OrderProblem Bool :=
  match a.number?, b.number?, a, b with
  | some m, some n, _, _ => .ok (m.before n)
  | _, _, .bytes s, .bytes t => .ok (decide (s < t))
  | _, _, .day d, .day e => .ok (d.ordinal < e.ordinal)
  | _, _, .time t, .time u =>
      if t.offset.isSome = u.offset.isSome then .ok (t.instant < u.instant) else .error .offsets
  | _, _, .day _, .time _ => .error .dayAndTime
  | _, _, .time _, .day _ => .error .dayAndTime
  | _, _, _, _ =>
      match a.text?, b.text? with
      | some s, some t => .ok (textBefore s t)
      | _, _ => .error (.kinds a.kindName b.kindName)

/-- Why two neighbouring keys have no order, if two have none. -/
def orderProblem? : List Value → Option OrderProblem
  | a :: b :: rest =>
      match keyBefore b a with
      | .error problem => some problem
      | .ok _ => orderProblem? (b :: rest)
  | _ => none

/-- Keys in order, if none is a foreign object. -/
def orderedKeys (keys : List Value) : Except OrderProblem (List Value) :=
  match orderProblem? keys with
  | some problem => .error problem
  | none =>
      let notAfter := fun (a b : Value) => match keyBefore b a with
        | .ok true => false
        | _ => true
      .ok (keys.mergeSort notAfter)

def sortedKeys (reader : Reader) (keys : List Value) : Except LoadProblem (List Value) :=
  if keys.any Value.isForeign then (reader.sorted keys).mapError .raised
  else (orderedKeys keys).mapError .incomparable

def shownKey (key : Value) : Except LoadProblem CodeText := key.shown.mapError .raised

/-- The keys of a mapping compared with some names. -/
def compareKeys (names : List String) (entries : List (Value × Value)) :
    Except LoadProblem Unit :=
  match entries.findSome? fun entry => entry.1.clash? names with
  | some error => .error (.raised error)
  | none => .ok ()

/-- A dialect with the given switches set, in the order of the entries. -/
def setSwitches (d : Dialect) : List (Value × Value) → Except LoadProblem Dialect
  | [] => .ok d
  | (key, value) :: rest =>
      match Switch.ofKey? key, value with
      | some s, .bool position => setSwitches (s.set d position) rest
      | _, _ => do throw (.rejected (.switchNotTruth (← shownKey key)))

def refuseSwitches (reader : Reader) (unknown : List Value) : Except LoadProblem Dialect := do
  let names ← (← sortedKeys reader unknown).mapM shownKey
  throw (.rejected (.unknownSwitches names))

/-- The dialect that some entries describe; unknown switches are refused before the others are
set. -/
def ofSwitches (reader : Reader) (entries : List (Value × Value)) : Except LoadProblem Dialect :=
  match (entries.map (·.1)).filter fun key => (Switch.ofKey? key).isNone with
  | [] => setSwitches {} entries
  | unknown => refuseSwitches reader unknown

/-- The dialect that a value describes; nothing describes the canonical one. -/
def dialect (reader : Reader) : Value → Except LoadProblem Dialect
  | .null => .ok {}
  | .mapping entries => do
      compareKeys (Switch.all.map Switch.name) entries
      ofSwitches reader entries
  | _ => .error (.rejected .dialectNotMapping)

def dialectValue (d : Dialect) : Value :=
  .mapping (Switch.all.map fun s => (.text s.name, .bool (s.get d)))

end Chip8.Config
