import Chip8.Proofs.Run

/-! # Transcripts

What passes between a host and a machine: a run whose actions come with their answers. With a seed
the actions alone determine the answers and the machine at the end; without one the random bytes may
tell two transcripts of the same actions apart.
-/

namespace Chip8.Machine

/-- A finite run carrying exactly its exchanges. Without a seed the random bytes to come may be any,
at every moment. -/
inductive Transcript (s : Settings) : Machine → List Exchange → Machine → Prop
  | nil (m : Machine) : Transcript s m [] m
  | act {m m' : Machine} (a : Action) {rest : List Exchange} :
      Transcript s (m.perform s a).machine rest m' →
        Transcript s m (⟨a, (m.perform s a).answer⟩ :: rest) m'
  | unseeded {m m' : Machine} {exchanges : List Exchange} (stream : RandomStream) :
      s.seed = none → Transcript s { m with random := stream } exchanges m' →
        Transcript s m exchanges m'

namespace Transcript

variable {s : Settings} {m m' : Machine} {exchanges : List Exchange}

/-- The actions performed one after the other make a transcript. -/
theorem of_after (m : Machine) (actions : List Action) :
    Transcript s m (m.exchanges s actions) (m.after s actions) := by
  induction actions generalizing m with
  | nil => exact .nil m
  | cons a rest ih => exact .act a (ih (m.perform s a).machine)

/-- The actions of a transcript make a run. -/
theorem run (transcript : Transcript s m exchanges m') :
    Run s m (exchanges.map Exchange.action) m' := by
  induction transcript with
  | nil m => exact .nil m
  | act a _ ih => exact .act ih
  | unseeded stream unseeded _ ih => exact .unseeded stream unseeded ih

/-- With a seed a transcript is what its actions make of the machine, and nothing else. -/
theorem eq_of_seeded {seed : Int} (seeded : s.seed = some seed)
    (transcript : Transcript s m exchanges m') :
    exchanges = m.exchanges s (exchanges.map Exchange.action) ∧
      m' = m.after s (exchanges.map Exchange.action) := by
  induction transcript with
  | nil m => exact ⟨rfl, rfl⟩
  | act a _ ih => exact ⟨congrArg _ ih.1, ih.2⟩
  | unseeded stream unseeded =>
    rw [seeded] at unseeded
    contradiction

/-- With a seed one machine has one transcript of the same actions. -/
theorem unique {seed : Int} (seeded : s.seed = some seed) {m₁ m₂ : Machine}
    {exchanges₁ exchanges₂ : List Exchange} (first : Transcript s m exchanges₁ m₁)
    (second : Transcript s m exchanges₂ m₂)
    (sameActions : exchanges₁.map Exchange.action = exchanges₂.map Exchange.action) :
    exchanges₁ = exchanges₂ ∧ m₁ = m₂ := by
  obtain ⟨answers₁, end₁⟩ := first.eq_of_seeded seeded
  obtain ⟨answers₂, end₂⟩ := second.eq_of_seeded seeded
  rw [answers₁, end₁, sameActions, ← answers₂, ← end₂]
  exact ⟨rfl, rfl⟩

/-- What the actions of a transcript keep, said of a machine and the last fault told of, holds at
its end. -/
theorem preserves_told (transcript : Transcript s m exchanges m')
    (inv : Option Fault → Machine → Prop) (last : Option Fault)
    (act : ∀ last m, ∀ e ∈ exchanges, inv last m →
      inv ((faultIn Reply.fault? (m.perform s e.action).answer).or last)
        (m.perform s e.action).machine)
    (blind : ∀ last m stream, inv last m → inv last { m with random := stream })
    (start : inv last m) : inv ((lastFault exchanges).or last) m' := by
  induction transcript generalizing last with
  | nil m => exact start
  | act a _ ih =>
    rw [lastFault, Option.or_assoc]
    exact ih _ (fun last m e member => act last m e (List.mem_cons_of_mem _ member))
      (act last _ ⟨a, _⟩ (List.mem_cons_self ..) start)
  | unseeded stream _ _ ih => exact ih _ act (blind last _ stream start)

end Transcript

end Chip8.Machine
