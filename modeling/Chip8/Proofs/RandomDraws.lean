import Chip8.Proofs.Effects

/-! # Draws from the random stream

A seed fixes a stream of bytes. The machine is at the place in it that the history says: one byte
further for each executed instruction that asks for a random byte, and back at the beginning with
each reset and each program that fits. So the bytes that a program gets do not depend on what else
happens between its requests.
-/

namespace Chip8

/-- The turn executes an instruction that asks for a random byte. -/
def Turn.draws (s : Settings) (t : Turn) : Bool :=
  match t.word? s with
  | some word => decide (word / 4096 = 0xC)
  | none => false

/-- The draws of some turns since the machine was last in its first state. -/
def drawsSince (s : Settings) (tape : List Turn) : Nat :=
  tape.foldl
    (fun count t => if t.restarts s then 0 else if t.draws s then count + 1 else count) 0

theorem drawsSince_concat (s : Settings) (tape : List Turn) (t : Turn) :
    drawsSince s (tape ++ [t]) =
      if t.restarts s then 0
      else if t.draws s then drawsSince s tape + 1 else drawsSince s tape :=
  List.foldl_append

/-- A turn that executes nothing draws nothing. -/
theorem drawsSince_of_idle {s : Settings} {t : Turn} (idle : t.word? s = none)
    (goesOn : t.restarts s = false) (tape : List Turn) :
    drawsSince s (tape ++ [t]) = drawsSince s tape := by
  have noDraw : t.draws s = false := by rw [Turn.draws, idle]
  simp only [drawsSince_concat, goesOn, noDraw, Bool.false_eq_true, ↓reduceIte]

/-- The words that ask for a random byte: a register and a mask behind a nibble. -/
theorem Instruction.operation?_eq_random_iff (word : Int) (x : Fin 16) (mask : UInt8) :
    (ofWord word).operation? = some (.random x.val mask.toNat) ↔
      word % 65536 = 0xC000 + 0x100 * x.val + mask.toNat := by
  constructor
  · intro asked
    exact (word_of_operation? asked (by simp)).symm
  · intro same
    have boundX := x.isLt
    have boundMask := mask.toNat_lt
    have op : (ofWord word).op = 0xC := by simp only [ofWord]; omega
    have register : (ofWord word).x = x.val := by simp only [ofWord]; omega
    have byte : (ofWord word).kk = mask.toNat := by simp only [ofWord]; omega
    simp only [operation?, op, register, byte]

/-- Only these words have this nibble. -/
theorem Instruction.exists_random (word : Int) (family : word % 65536 / 4096 = 0xC) :
    ∃ (x : Fin 16) (mask : UInt8),
      (ofWord word).operation? = some (.random x.val mask.toNat) := by
  obtain ⟨x, _, _, kk, _, isX, _, _, isKk, _⟩ := ofWord_fields word
  have op : (ofWord word).op = 0xC := family
  exact ⟨x, kk, by simp only [operation?, op, isX, isKk]⟩

namespace Machine

variable {s : Settings} {t : Turn} {past : List Turn} {stream : RandomStream}

/-- A request takes the next byte of the stream, masked, into its register. -/
theorem run_random_eq (d : Dialect) (m : Machine) (x : Fin 16) (mask : UInt8) :
    (m.run d (.random x.val mask.toNat)).machine =
      { m with random := m.random.next.2 }.setRegister x (m.random.next.1 &&& mask) := by
  simp only [run, Registers.slot_val, Outcome.lookup_ok, Outcome.machine_done, lowByte_toNat]

/-- The machine is as far in the stream as its history says. -/
theorem random_after (isStream : stream = .ofSeed s.seed) (atomic : t.action.IsAtomic)
    (before : t.machine.random = stream.skip (drawsSince s past)) :
    (t.after s).random = stream.skip (drawsSince s (past ++ [t])) := by
  cases t.effect s atomic with
  | executes word operation executed goesOn _ asked run =>
    have isWord := Turn.word?_emod executed
    rw [drawsSince_concat, run, goesOn, if_neg Bool.false_ne_true, Turn.draws, executed]
    by_cases draws : ∃ (x : Fin 16) (mask : UInt8), operation = .random x.val mask.toNat
    · obtain ⟨x, mask, rfl⟩ := draws
      have family : word / 4096 = 0xC := by
        have := (Instruction.operation?_eq_random_iff word x mask).mp asked
        have := x.isLt
        have := mask.toNat_lt
        omega
      rw [run_random_eq, if_pos (decide_eq_true family), Turn.random_ready, before]
      exact congrArg Prod.snd (stream.next_skip _)
    · have family : ¬ word / 4096 = 0xC := by
        intro family
        obtain ⟨x, mask, again⟩ := Instruction.exists_random word (by rwa [isWord])
        exact draws ⟨x, mask, Option.some.inj (asked.symm.trans again)⟩
      rw [if_neg (by simpa using family), ← before, ← Turn.random_ready]
      exact Machine.run_random (Instruction.operation?_encodable asked)
        fun x mask same => draws ⟨x, mask, same⟩
  | restarts memory _ restarted first =>
    rw [drawsSince_concat, if_pos restarted, first, isStream]
    rfl
  | ticks idle goesOn _ ticked =>
    rw [drawsSince_of_idle idle goesOn, ticked]
    exact before
  | looks idle goesOn _ looked =>
    rw [drawsSince_of_idle idle goesOn, looked]
    exact before
  | rests idle goesOn _ _ _ _ random =>
    rw [drawsSince_of_idle idle goesOn, random]
    exact before

/-- What an executed request stores: the byte at the place in the stream, masked. -/
theorem register_after_draw (before : t.machine.random = stream.skip (drawsSince s past))
    {x : Fin 16} {mask : UInt8}
    (draws : t.word? s = some (0xC000 + 0x100 * x.val + mask.toNat : Int)) :
    (t.after s).registers.v.get x = stream.nth (drawsSince s past) &&& mask := by
  obtain ⟨operation, asked, run⟩ := Turn.after_of_word draws
  have request := (Instruction.operation?_eq_random_iff _ x mask).mpr (Turn.word?_emod draws)
  obtain rfl := Option.some.inj (asked.symm.trans request)
  rw [run, run_random_eq, v_setRegister, Turn.random_ready, before]
  rfl

/-- The place in the stream is the one that the history says. -/
def AtDraw (s : Settings) (past : List Turn) (m : Machine) : Prop :=
  m.random = (RandomStream.ofSeed s.seed).skip (drawsSince s past)

theorem atDraw_initial (s : Settings) : AtDraw s [] (initial s) := by
  simp only [AtDraw, initial, drawsSince, List.foldl_nil, RandomStream.skip]

theorem AtDraw.turn (before : AtDraw s past t.machine) (atomic : t.action.IsAtomic) :
    AtDraw s (past ++ [t]) (t.after s) :=
  random_after rfl atomic before

/-- With a seed the place is fixed at every moment, also within runs of frames. -/
theorem Course.atDraw {seed : Int} (seeded : s.seed = some seed) {tape : List Turn} {m : Machine}
    (course : Course s (initial s) tape m) :
    AtDraw s (parts s tape) m ∧ ∀ past t future, parts s tape = past ++ t :: future →
      AtDraw s past t.machine ∧ AtDraw s (past ++ [t]) (t.after s) := by
  have turn : ∀ past, ∀ t ∈ parts s tape, AtDraw s past t.machine →
      AtDraw s (past ++ [t]) (t.after s) :=
    fun past t member before => before.turn (isAtomic_of_mem_parts member)
  have blind : s.seed = none → ∀ past m stream, AtDraw s past m →
      AtDraw s past { m with random := stream } := by
    intro noSeed
    rw [seeded] at noSeed
    cases noSeed
  exact ⟨course.in_parts.keeps _ turn blind (atDraw_initial s),
    fun past t future => course.in_parts.keeps_throughout _ turn blind (atDraw_initial s)⟩

/-- Whatever a host does to a machine with a seed, each executed request for a random byte stores
the next byte of the seed's stream, masked, and nothing else moves the place in the stream but a
reset or a program that fits, which go back to its beginning. So two machines with one seed that
have drawn equally often are at the same place. -/
theorem randomDraws_of_seeded {seed : Int} (seeded : s.seed = some seed) (actions : List Action) :
    let stream := RandomStream.ofSeed (some seed)
    let ended := (initial s).after s actions
    let tape := parts s ((initial s).tape s actions)
    (∀ past t future, tape = past ++ t :: future →
      t.machine.random = stream.skip (drawsSince s past) ∧
      (t.after s).random = stream.skip (drawsSince s (past ++ [t])) ∧
      ∀ (x : Fin 16) (mask : UInt8),
        t.word? s = some (0xC000 + 0x100 * x.val + mask.toNat : Int) →
          (t.after s).registers.v.get x = stream.nth (drawsSince s past) &&& mask) ∧
    ended.random = stream.skip (drawsSince s tape) ∧
    ∀ (s' : Settings) (actions' : List Action), s'.seed = some seed →
      drawsSince s' (parts s' ((initial s').tape s' actions')) = drawsSince s tape →
        ((initial s').after s' actions').random = ended.random := by
  intro stream ended tape
  have isStream : stream = .ofSeed s.seed := by rw [seeded]
  obtain ⟨atEnd, throughout⟩ := (Course.of_tape s (initial s) actions).atDraw seeded
  refine ⟨?_, ?_, ?_⟩
  · intro past t future parted
    obtain ⟨before, behind⟩ := throughout past t future parted
    rw [isStream]
    exact ⟨before, behind, fun x mask draws => register_after_draw before draws⟩
  · rw [isStream]
    exact atEnd
  · intro s' actions' seeded' equallyOften
    have atEnd' := ((Course.of_tape s' (initial s') actions').atDraw seeded').1
    have place : ended.random = _ := atEnd
    rw [place, atEnd', seeded, seeded', equallyOften]

/-- A request that is forced on a machine is executed to its end, whatever the machine does. -/
theorem word?_of_request (s : Settings) (m : Machine) (x : Fin 16) (mask : UInt8) :
    Turn.word? s ⟨m, .execute (0xC000 + 0x100 * x.val + mask.toNat)⟩ =
      some (0xC000 + 0x100 * x.val + mask.toNat : Int) := by
  have boundX := x.isLt
  have boundMask := mask.toNat_lt
  have whole : (0xC000 + 0x100 * x.val + mask.toNat : Int) % 65536 =
      0xC000 + 0x100 * x.val + mask.toNat := by omega
  have asked := (Instruction.operation?_eq_random_iff _ x mask).mpr whole
  have finished : (m.exec s.dialect
      (.ofWord (0xC000 + 0x100 * x.val + mask.toNat))).answer = .ok () := by
    simp only [exec, asked, run, Registers.slot_val, Outcome.lookup_ok, Outcome.answer_done]
  rw [word?_execute, finished, whole]
  rfl

/-- A request without a mask draws a byte that is lost; the next one stores the second byte. -/
theorem randomDraws_of_seeded_second :
    let s : Settings := { seed := some 7 }
    let first : Turn :=
      ⟨initial s, .execute (0xC000 + 0x100 * (0 : Fin 16).val + (0 : UInt8).toNat)⟩
    let second : Turn :=
      ⟨first.after s, .execute (0xC000 + 0x100 * (1 : Fin 16).val + (0xFF : UInt8).toNat)⟩
    s.seed = some 7 ∧ first.draws s = true ∧
      (second.after s).registers.v.get 1 = (RandomStream.ofSeed (some 7)).nth 1 &&& 0xFF := by
  intro s first second
  have draws : first.draws s = true := by
    simp only [first, Turn.draws, word?_of_request]
    decide
  have once : drawsSince s [first] = 1 := by
    have goesOn : first.restarts s = false := rfl
    simp only [drawsSince, List.foldl_cons, List.foldl_nil, goesOn, draws, Bool.false_eq_true,
      ↓reduceIte, Nat.zero_add]
  have stored := ((@randomDraws_of_seeded s 7 rfl [first.action, second.action]).1
    [first] second [] rfl).2.2 1 0xFF (word?_of_request s _ 1 0xFF)
  rw [once] at stored
  exact ⟨rfl, draws, stored⟩

end Machine

end Chip8
