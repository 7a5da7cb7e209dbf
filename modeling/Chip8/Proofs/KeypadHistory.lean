import Chip8.Proofs.KeyWait
import Mathlib.Data.List.DropRight

/-! # A keypad and the history of its calls

What a keypad answers, told by the calls before. Its latch gives out the smallest key that was
pressed while it was up, since the latch was last emptied, and its levels are those that the keys
were last set to, since the last reset. Calls for keys that do not exist are refused and leave the
keypad alone.
-/

namespace Chip8.Keypad

/-- A call of a keypad: any integer may be given as the key. -/
inductive Call where
  | setKey (index : Int) (pressed : Bool)
  | takeEdge
  | clearEdges
  | reset
deriving DecidableEq

/-- Whether the latch is empty after a call, whatever it held before. -/
def Call.empties : Call → Bool
  | setKey .. => false
  | takeEdge => true
  | clearEdges => true
  | reset => true

/-- The level that a call sets a key to, if it is a call for this key. -/
def Call.levelOf? (key : Int) : Call → Option Bool
  | setKey index pressed => if index = key then some pressed else none
  | _ => none

/-- The answer to a call, which is a key or none where an edge is taken, and the keypad after it. -/
def perform (k : Keypad) : Call → Except Refusal (Option (Fin 16)) × Keypad
  | .setKey index pressed =>
      match k.setKey index pressed with
      | .ok moved => (.ok none, moved)
      | .error reason => (.error reason, k)
  | .takeEdge => (.ok k.takeEdge.1, k.takeEdge.2)
  | .clearEdges => (.ok none, k.clearEdges)
  | .reset => (.ok none, k.reset)

def performAll (k : Keypad) (calls : List Call) : Keypad :=
  calls.foldl (fun k call => (k.perform call).2) k

/-- The level that a key was last set to since the last reset, and up if it was not set since. -/
def lastLevel (calls : List Call) (key : Int) : Bool :=
  ((calls.rtakeWhile (· ≠ .reset)).filterMap (Call.levelOf? key)).getLast?.getD false

/-- A key was pressed while its level was up, and no later call emptied the latch. -/
def WentDown (calls : List Call) (key : Fin 16) : Prop :=
  ∃ before after, calls = before ++ .setKey key.val true :: after ∧
    lastLevel before key.val = false ∧ ∀ call ∈ after, call.empties = false

variable {k : Keypad} {calls : List Call} {call : Call} {key : Fin 16} {index : Int}
  {pressed : Bool}

section History

theorem lastLevel_concat (calls : List Call) (call : Call) (key : Int) :
    lastLevel (calls ++ [call]) key =
      if call = .reset then false else (call.levelOf? key).getD (lastLevel calls key) := by
  rw [lastLevel, List.rtakeWhile_concat]
  by_cases isReset : call = .reset
  · simp [isReset]
  · simp only [ne_eq, isReset, not_false_eq_true, decide_true, ↓reduceIte, List.filterMap_append,
      lastLevel]
    cases sets : call.levelOf? key with
    | none => simp [sets]
    | some level => simp [sets]

/-- With one more call a key went down if it had before and the latch is kept, or if it goes down
by this call. -/
theorem wentDown_concat :
    WentDown (calls ++ [call]) key ↔
      call.empties = false ∧ WentDown calls key ∨
        call = .setKey key.val true ∧ lastLevel calls key.val = false := by
  constructor
  · rintro ⟨before, after, parts, up, kept⟩
    -- The key went down by the last call, or the last call is one of those after it.
    obtain rfl | ⟨after, last, rfl⟩ := List.eq_nil_or_concat' after
    · obtain ⟨rfl, now⟩ := List.append_inj' parts rfl
      exact .inr ⟨List.head_eq_of_cons_eq now, up⟩
    · rw [← List.cons_append, ← List.append_assoc] at parts
      obtain ⟨earlier, now⟩ := List.append_inj' parts rfl
      obtain rfl := List.head_eq_of_cons_eq now
      obtain ⟨keptBefore, keptNow⟩ := List.forall_mem_append.mp kept
      exact .inl ⟨keptNow call (List.mem_singleton_self call), before, after, earlier, up,
        keptBefore⟩
  · rintro (⟨kept, before, after, rfl, up, keptBefore⟩ | ⟨rfl, up⟩)
    · refine ⟨before, after ++ [call], by simp, up, List.forall_mem_append.mpr ⟨keptBefore, ?_⟩⟩
      simpa using kept
    · exact ⟨calls, [], rfl, up, by simp⟩

theorem not_wentDown_nil : ¬ WentDown [] key := by
  rintro ⟨before, after, parts, -⟩
  simp at parts

end History

section Calls

theorem firstEdge_eq_none_iff : k.firstEdge = none ↔ ∀ key : Fin 16, ¬ k.edges.get key :=
  ⟨fun none key => List.find?_eq_none.mp none key (List.mem_finRange key), firstEdge_eq_none⟩

/-- An edge is taken by emptying the latch, also where it holds none. -/
theorem takeEdge_eq (k : Keypad) : k.takeEdge = (k.firstEdge, k.clearEdges) := by
  unfold takeEdge
  cases first : k.firstEdge with
  | some key => rfl
  | none =>
    have untouched : k.edges = Vector.replicate 16 false := by
      ext i inside
      have unlatched := firstEdge_eq_none_iff.mp first ⟨i, inside⟩
      rw [Vector.getElem_replicate]
      exact Bool.eq_false_of_not_eq_true unlatched
    rw [clearEdges, ← untouched]

theorem firstEdge_eq_some_iff :
    k.firstEdge = some key ↔ IsLeast {key : Fin 16 | k.edges.get key} key := by
  constructor
  · intro first
    have latched : {key : Fin 16 | k.edges.get key}.Nonempty := ⟨key, List.find?_some first⟩
    obtain ⟨least, isFirst, isLeast⟩ := exists_firstEdge latched
    rw [first, Option.some.injEq] at isFirst
    exact isFirst ▸ isLeast
  · intro isLeast
    obtain ⟨least, isFirst, isLeast'⟩ := exists_firstEdge ⟨key, isLeast.1⟩
    rw [isFirst, Fin.le_antisymm (isLeast'.2 isLeast.1) (isLeast.2 isLeast'.1)]

/-- The level that is looked up is that of the key with the last hexadecimal digit. -/
theorem isPressed_of_emod {i : Int} (denoted : i % 16 = key.val) :
    k.isPressed i = k.down.get key := by
  have place : (i % 16).toNat = key.val := by omega
  rw [isPressed, place, Vector.getElem?_eq_getElem key.isLt]
  rfl

theorem perform_setKey_val (k : Keypad) (key : Fin 16) (pressed : Bool) :
    k.perform (.setKey key.val pressed) = (.ok none, k.move key pressed) := by
  simp only [perform, setKey_val]

theorem perform_setKey_outside (outside : index < 0 ∨ 15 < index) :
    k.perform (.setKey index pressed) = (.error (.noSuchKey index), k) := by
  have noKey (key : Fin 16) : index ≠ key.val := by omega
  simp only [perform, setKey_outside noKey]

/-- A call resets the level of a key, sets it, or keeps it. -/
theorem down_perform (k : Keypad) (call : Call) (key : Fin 16) :
    (k.perform call).2.down.get key =
      if call = .reset then false else (call.levelOf? key.val).getD (k.down.get key) := by
  cases call with
  | setKey index pressed =>
    simp only [reduceCtorEq, ↓reduceIte, Call.levelOf?]
    by_cases outside : index < 0 ∨ 15 < index
    · have other : ¬ index = key.val := by omega
      rw [perform_setKey_outside outside, if_neg other, Option.getD_none]
    · obtain ⟨moved, rfl⟩ := Registers.exists_val (z := index) (by omega) (by omega)
      rw [perform_setKey_val, down_move]
      by_cases same : moved = key
      · simp [same]
      · have other : ¬ (moved.val : Int) = key.val := by omega
        rw [if_neg same, if_neg other, Option.getD_none]
  | takeEdge =>
    rw [perform, takeEdge_eq]
    rfl
  | clearEdges => rfl
  | reset => exact Vector.getElem_replicate key.isLt

/-- A key is latched after a call if it was before and the latch is kept, or if it goes down by the
call. -/
theorem edges_perform (k : Keypad) (call : Call) (key : Fin 16) :
    (k.perform call).2.edges.get key = true ↔
      call.empties = false ∧ k.edges.get key = true ∨
        call = .setKey key.val true ∧ k.down.get key = false := by
  cases call with
  | setKey index pressed =>
    simp only [Call.empties, true_and, Call.setKey.injEq]
    by_cases outside : index < 0 ∨ 15 < index
    · have other : ¬ index = key.val := by omega
      simp only [perform_setKey_outside outside, other, false_and, or_false]
    · obtain ⟨moved, rfl⟩ := Registers.exists_val (z := index) (by omega) (by omega)
      rw [perform_setKey_val, edges_move, Int.natCast_inj, ← Fin.ext_iff]
      by_cases same : moved = key
      · simp [same]
      · simp [same]
  | takeEdge =>
    rw [perform, takeEdge_eq]
    simp [Call.empties, edges_clearEdges]
  | clearEdges => simp [perform, Call.empties, edges_clearEdges]
  | reset => simp [perform, reset, Call.empties, edges_clearEdges]

end Calls

/-- Levels and latch of a keypad are those that a history of calls tells. -/
structure Follows (k : Keypad) (calls : List Call) : Prop where
  level (key : Fin 16) : k.down.get key = lastLevel calls key.val
  latch (key : Fin 16) : k.edges.get key = true ↔ WentDown calls key

theorem follows_initial : Follows initial [] where
  level key := Vector.getElem_replicate key.isLt
  latch key := by
    have unlatched : initial.edges.get key = false := Vector.getElem_replicate key.isLt
    simp only [unlatched, Bool.false_eq_true, not_wentDown_nil]

/-- One more call is one more in the history. -/
theorem Follows.perform (follows : Follows k calls) (call : Call) :
    Follows (k.perform call).2 (calls ++ [call]) where
  level key := by rw [down_perform, lastLevel_concat, follows.level]
  latch key := by rw [edges_perform, wentDown_concat, follows.latch, follows.level]

theorem follows_performAll (calls : List Call) : Follows (initial.performAll calls) calls := by
  induction calls using List.reverseRecOn with
  | nil => exact follows_initial
  | append_singleton calls call ih =>
    rw [performAll, List.foldl_append]
    exact ih.perform call

/-- A keypad after any calls, refused ones among them. An edge that is taken is the smallest key
that was pressed while it was up since the latch was last emptied, and there is none exactly if no
key was. The key that an integer denotes by its last hexadecimal digit is down as it was last set
since the last reset. A key outside `0..15` is refused, without a change of levels or latch. -/
theorem answers_of_calls (calls : List Call) :
    let k := initial.performAll calls
    (∀ key, (k.perform .takeEdge).1 = .ok (some key) ↔
      IsLeast {key : Fin 16 | WentDown calls key} key) ∧
    ((k.perform .takeEdge).1 = .ok none ↔ ∀ key, ¬ WentDown calls key) ∧
    (∀ i : Int, k.isPressed i = lastLevel calls (i % 16)) ∧
    ∀ (index : Int) (pressed : Bool),
      (0 ≤ index ∧ index ≤ 15 → (k.perform (.setKey index pressed)).1 = .ok none) ∧
      (index < 0 ∨ 15 < index →
        k.perform (.setKey index pressed) = (.error (.noSuchKey index), k)) := by
  intro k
  have follows : Follows k calls := follows_performAll calls
  have latched : {key : Fin 16 | k.edges.get key} = {key | WentDown calls key} :=
    Set.ext follows.latch
  have taken : (k.perform .takeEdge).1 = .ok k.firstEdge := by rw [perform, takeEdge_eq]
  refine ⟨?_, ?_, ?_, ?_⟩
  · intro key
    rw [taken, Except.ok.injEq, firstEdge_eq_some_iff, latched]
  · rw [taken, Except.ok.injEq, firstEdge_eq_none_iff]
    exact forall_congr' fun key => not_congr (follows.latch key)
  · intro i
    obtain ⟨key, denoted⟩ := Registers.exists_val (z := i % 16) (by omega) (by omega)
    rw [isPressed_of_emod denoted, follows.level, denoted]
  · intro index pressed
    refine ⟨?_, perform_setKey_outside⟩
    rintro ⟨low, high⟩
    obtain ⟨key, rfl⟩ := Registers.exists_val low (Int.lt_add_one_of_le high)
    rw [perform_setKey_val]

/-- Key 3 is held, taken and pressed again while it is down, then released and pressed; key 1
follows it, and a call for a key that does not exist comes last. -/
theorem answers_of_calls_again :
    let calls : List Call := [.setKey 3 true, .takeEdge, .setKey 3 true, .setKey 3 false,
      .setKey 3 true, .setKey 1 true, .setKey 16 true]
    let k := initial.performAll calls
    (k.perform .takeEdge).1 = .ok (some 1) ∧ WentDown calls 1 ∧
      (∀ key, WentDown calls key → 1 ≤ key) ∧ k.isPressed (-13) = true ∧
      ((0 : Int) ≤ 15 ∧ (15 : Int) ≤ 15) ∧ (k.perform (.setKey 15 true)).1 = .ok none ∧
      ((-1 : Int) < 0 ∨ (15 : Int) < -1) ∧
      k.perform (.setKey (-1) true) = (.error (.noSuchKey (-1)), k) := by
  intro calls k
  obtain ⟨edge, -, level, keys⟩ := answers_of_calls calls
  have taken : (k.perform .takeEdge).1 = .ok (some 1) := by decide
  have least := (edge 1).mp taken
  have inside : (0 : Int) ≤ 15 ∧ (15 : Int) ≤ 15 := by decide
  have outside : (-1 : Int) < 0 ∨ (15 : Int) < -1 := by decide
  refine ⟨taken, least.1, fun key down => least.2 down, ?_, inside, (keys 15 true).1 inside,
    outside, (keys (-1) true).2 outside⟩
  rw [level]
  decide

end Chip8.Keypad
