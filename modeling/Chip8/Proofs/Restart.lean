import Chip8.Proofs.Transcript

/-! # Restarts

A reset, or a program that is placed, leaves nothing of what happened before. With a seed the random
bytes begin anew as well, so from then on a host cannot tell the machine from one that was just
switched on. A program that is too large is refused before anything is put back.
-/

namespace Chip8

namespace Memory

/-- The bytes of a memory that was just switched on. -/
theorem toList_initial :
    initial.bytes.toList =
      List.replicate fontBase 0 ++ font ++ List.replicate (memorySize - (fontBase + 80)) 0 := by
  rw [initial, toList_place, Vector.toList_replicate, List.take_replicate,
    List.drop_replicate, length_font]
  rfl

/-- A program that fits lies between zeros, from the program start on. -/
theorem toList_place_program {program : List UInt8} (fits : program.length ≤ programCapacity) :
    (initial.placeProgram program fits).bytes.toList =
      List.replicate fontBase 0 ++ font ++ List.replicate (programStart - (fontBase + 80)) 0 ++
        program ++ List.replicate (programCapacity - program.length) 0 := by
  have table : (List.replicate fontBase 0 ++ font).length = fontBase + 80 := rfl
  have below : programStart + program.length ≤ memorySize :=
    (Nat.le_sub_iff_add_le' (by decide)).mp fits
  have front : initial.bytes.toList.take programStart =
      List.replicate fontBase 0 ++ font ++ List.replicate (programStart - (fontBase + 80)) 0 := by
    rw [toList_initial, List.take_append, table, List.take_of_length_le (by rw [table]; decide),
      List.take_replicate, Nat.min_eq_left (by decide)]
  have back : initial.bytes.toList.drop (programStart + program.length) =
      List.replicate (programCapacity - program.length) 0 := by
    have behind : fontBase + 80 ≤ programStart + program.length := by
      simp only [fontBase, programStart]
      omega
    have remaining :
        memorySize - (fontBase + 80) - (programStart + program.length - (fontBase + 80)) =
          programCapacity - program.length := by
      simp only [fontBase, programCapacity, programStart, memorySize]
      omega
    rw [toList_initial, List.drop_append, table, List.drop_of_length_le (by rwa [table]),
      List.drop_replicate, List.nil_append, remaining]
  rw [placeProgram, toList_place _ below, front, back]

end Memory

namespace Machine

variable {s : Settings}

/-- Whatever a host does to one machine and to the other, it gets the same answers from both and
leaves them equal. -/
def ActsLike (s : Settings) (m₁ m₂ : Machine) : Prop :=
  ∀ {exchanges₁ exchanges₂ : List Exchange} {m₁' m₂' : Machine},
    Transcript s m₁ exchanges₁ m₁' → Transcript s m₂ exchanges₂ m₂' →
      exchanges₁.map Exchange.action = exchanges₂.map Exchange.action →
        exchanges₁ = exchanges₂ ∧ m₁' = m₂'

/-- With a seed a machine that is equal to another acts like it. -/
theorem actsLike_of_eq {seed : Int} (seeded : s.seed = some seed) {m₁ m₂ : Machine}
    (same : m₁ = m₂) : ActsLike s m₁ m₂ := by
  subst same
  intro _ _ _ _ first second sameActions
  exact first.unique seeded second sameActions

/-- A program that fits makes every machine the same one. -/
theorem load_eq_load_initial (m : Machine) {program : List UInt8}
    (fits : program.length ≤ programCapacity) : m.load s program = (initial s).load s program := by
  rw [load_of_fits s m fits, load_of_fits s (initial s) fits]

/-- With a seed, whatever a machine has been through: a program that fits makes it the machine that
the program makes of a new one, whose memory holds the font table, the program and zeros and which
is a new machine otherwise; a reset makes it a new machine; and either acts like that machine from
then on. A program that is too large is refused and changes nothing. -/
theorem likeNew_of_seeded {seed : Int} (seeded : s.seed = some seed) (m : Machine)
    (program : List UInt8) :
    (program.length ≤ 3584 →
      ∃ memory : Memory,
        memory.bytes.toList =
          List.replicate 0x50 0 ++ font ++ List.replicate (0x200 - (0x50 + 80)) 0 ++ program ++
            List.replicate (3584 - program.length) 0 ∧
        (m.load s program).answer = .ok () ∧
        (m.load s program).machine = { initial s with memory := memory } ∧
        m.load s program = (initial s).load s program ∧
        ActsLike s (m.load s program).machine ((initial s).load s program).machine) ∧
    ((m.reset s).answer = .ok () ∧ (m.reset s).machine = initial s ∧
      ActsLike s (m.reset s).machine (initial s)) ∧
    (3584 < program.length →
      m.load s program = .refused (.programTooLarge program.length 3584) m) := by
  refine ⟨?_, ?_, load_of_tooLarge s m⟩
  · intro fits
    have same : m.load s program = (initial s).load s program := load_eq_load_initial m fits
    refine ⟨Memory.initial.placeProgram program fits, Memory.toList_place_program fits, ?_, ?_,
      same, actsLike_of_eq seeded (congrArg Outcome.machine same)⟩
    · rw [load_of_fits s m fits, Outcome.answer_done]
    · rw [load_of_fits s m fits, Outcome.machine_done]
  · rw [reset_eq]
    exact ⟨rfl, rfl, actsLike_of_eq seeded rfl⟩

/-- A machine that drew a random byte and then waits for a key, given another program, reset, and
given a program that is too large. -/
theorem likeNew_of_seeded_waiting :
    let s : Settings := { seed := some 7 }
    let m := (initial s).after s [.load [0xC0, 0xFF, 0xF1, 0x0A], .step, .step]
    m.load s [0x00, 0xE0] = (initial s).load s [0x00, 0xE0] ∧
      (m.reset s).machine = initial s ∧ ActsLike s (m.reset s).machine (initial s) ∧
      m.load s (List.replicate 3585 0) = .refused (.programTooLarge 3585 3584) m := by
  intro s m
  have seeded : s.seed = some 7 := rfl
  obtain ⟨fits, ⟨_, new, alike⟩, _⟩ := likeNew_of_seeded seeded m [0x00, 0xE0]
  obtain ⟨_, _, _, _, same, _⟩ := fits (by decide)
  have tooLarge := (likeNew_of_seeded seeded m (List.replicate 3585 0)).2.2
  rw [List.length_replicate] at tooLarge
  exact ⟨same, new, alike, tooLarge (by decide)⟩

end Machine

end Chip8
