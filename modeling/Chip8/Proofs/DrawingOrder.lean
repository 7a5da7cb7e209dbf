import Chip8.Proofs.SpriteHits

/-! # Sprites drawn in any order

A drawn sprite toggles pixels, and toggles commute and cancel. So some drawings leave the same frame
in whatever order they are made, and made once more, in any order, they bring the first frame back.
A drawing that hits no pixel twice turns one pixel on or off for each hit: the number of lit pixels
tells how many hits fell on lit ones, and the collision flag whether there were any.
-/

namespace Chip8

/-- A sprite, where its origin is and how edges are treated. -/
structure Drawing where
  x : Int
  y : Int
  sprite : List UInt8
  clip : Bool
deriving DecidableEq

namespace Drawing

open Screen

/-- The drawing made on a frame: the frame after it, and the collision flag. -/
def on (d : Drawing) (s : Screen) : Screen × Bool := s.draw d.x d.y d.sprite d.clip

/-- A bit of the sprite is set and falls on the frame. -/
def Hits (d : Drawing) (bit : Nat × Nat) : Prop :=
  IsSet d.sprite bit ∧ ∃ p, FallsOn d.clip d.x d.y bit p

/-- A bit of the sprite is set and falls on a lit pixel. -/
def HitsLit (d : Drawing) (s : Screen) (bit : Nat × Nat) : Prop :=
  IsSet d.sprite bit ∧ ∃ p, FallsOn d.clip d.x d.y bit p ∧ s.pixels.get p = true

instance (d : Drawing) (bit : Nat × Nat) : Decidable (d.Hits bit) :=
  @instDecidableAnd _ _ _ (Nat.decidableExistsFin _)

instance (d : Drawing) (s : Screen) (bit : Nat × Nat) : Decidable (d.HitsLit s bit) :=
  @instDecidableAnd _ _ _ (Nat.decidableExistsFin _)

def hitCount (d : Drawing) : Nat := (bits d.sprite.length).countP fun bit => decide (d.Hits bit)

/-- The number of hits on lit pixels of a frame. -/
def litHitCount (d : Drawing) (s : Screen) : Nat :=
  (bits d.sprite.length).countP fun bit => decide (d.HitsLit s bit)

/-- The pixels that the drawing hits, one by one. -/
def pixelsHit (d : Drawing) : List Pixel := hits d.clip d.x d.y d.sprite

end Drawing

namespace Screen

/-- The frame after some drawings were made one after the other. -/
def drawAll (s : Screen) (drawings : List Drawing) : Screen :=
  drawings.foldl (fun s d => (d.on s).1) s

section Order

theorem odd_add_eq_xor (m n : Nat) :
    decide (Odd (m + n)) = (decide (Odd m) ^^ decide (Odd n)) := by
  by_cases oddM : Odd m <;> by_cases oddN : Odd n <;>
    simp [Nat.odd_add, oddM, oddN, ← Nat.not_odd_iff_even]

/-- Two frames with equal pixels, one by one. -/
theorem pixels_ext {s t : Screen} (same : ∀ p : Pixel, s.pixels.get p = t.pixels.get p) :
    s.pixels = t.pixels :=
  Vector.ext fun i inside => same ⟨i, inside⟩

/-- Each hit of all the drawings toggles its pixel. -/
theorem get_drawAll (s : Screen) (drawings : List Drawing) (p : Pixel) :
    (s.drawAll drawings).pixels.get p =
      (s.pixels.get p ^^ decide (Odd ((drawings.flatMap Drawing.pixelsHit).count p))) := by
  induction drawings generalizing s with
  | nil => simp [drawAll]
  | cons d rest ih =>
    have drawn : (d.on s).1.pixels.get p = (s.pixels.get p ^^ decide (Odd (d.pixelsHit.count p))) :=
      get_foldl_toggle d.pixelsHit p
    have next : s.drawAll (d :: rest) = (d.on s).1.drawAll rest := rfl
    rw [next, ih, drawn, List.flatMap_cons, List.count_append, odd_add_eq_xor, Bool.xor_assoc]

theorem drawAll_append (s : Screen) (first second : List Drawing) :
    s.drawAll (first ++ second) = (s.drawAll first).drawAll second :=
  List.foldl_append

/-- The order of drawings does not matter. -/
theorem pixels_drawAll_of_perm (s : Screen) {drawings other : List Drawing}
    (perm : drawings.Perm other) : (s.drawAll drawings).pixels = (s.drawAll other).pixels := by
  apply pixels_ext
  intro p
  rw [get_drawAll, get_drawAll, (perm.flatMap_right Drawing.pixelsHit).count_eq p]

/-- Made twice, drawings cancel. -/
theorem pixels_drawAll_again (s : Screen) {drawings again : List Drawing}
    (perm : drawings.Perm again) : ((s.drawAll drawings).drawAll again).pixels = s.pixels := by
  apply pixels_ext
  intro p
  have twice : ((drawings ++ again).flatMap Drawing.pixelsHit).count p =
      (drawings.flatMap Drawing.pixelsHit).count p +
        (drawings.flatMap Drawing.pixelsHit).count p := by
    rw [List.flatMap_append, List.count_append, (perm.flatMap_right Drawing.pixelsHit).count_eq p]
  rw [← drawAll_append, get_drawAll, twice, odd_add_eq_xor, Bool.xor_self, Bool.xor_false]

end Order

section Account

variable {state : Vector Bool (screenWidth * screenHeight) × Bool}

/-- A toggle turns one pixel on or off. -/
theorem count_toggle (q : Pixel) :
    ((toggle state q).1.toList.count true : Int) =
      state.1.toList.count true + if state.1.get q then -1 else 1 := by
  have inside : q.val < state.1.toList.length := by
    rw [Vector.length_toList]
    exact q.isLt
  have entry : state.1.toList[q.val] = state.1.get q := Vector.getElem_toList _
  have changed : (toggle state q).1.toList = state.1.toList.set q.val (!state.1.get q) :=
    Vector.toList_set q.isLt
  rw [changed, List.count_set inside, entry]
  cases lit : state.1.get q
  · simp
  · have some : 0 < state.1.toList.count true :=
      List.count_pos_iff.mpr (lit ▸ entry ▸ List.getElem_mem inside)
    simp only [Bool.not_true, beq_self_eq_true, ↓reduceIte, beq_true, Bool.false_eq_true]
    omega

/-- If no pixel is toggled twice, each toggle of a lit pixel turns one off and each other toggle
turns one on. -/
theorem count_foldl_toggle {hits : List Pixel} (once : hits.Nodup) :
    ((hits.foldl toggle state).1.toList.count true : Int) =
      state.1.toList.count true + hits.length - 2 * hits.countP fun p => state.1.get p := by
  induction hits generalizing state with
  | nil => simp
  | cons q rest ih =>
    obtain ⟨apart, onceThen⟩ := List.nodup_cons.mp once
    have untouched : rest.countP (fun p => (toggle state q).1.get p) =
        rest.countP fun p => state.1.get p := by
      apply List.countP_congr
      intro p member
      rw [get_toggle, if_neg (ne_of_mem_of_not_mem member apart).symm]
    rw [List.foldl_cons, ih onceThen, untouched, count_toggle, List.countP_cons, List.length_cons]
    split <;> push_cast <;> omega

end Account

end Screen

namespace Drawing

open Screen

variable {d : Drawing} {s : Screen}

theorem pixelsHit_eq (d : Drawing) :
    d.pixelsHit =
      (bits d.sprite.length).filterMap (hitBy d.clip (d.x % 64).toNat (d.y % 32).toNat d.sprite) :=
  hitsFrom_eq ..

theorem length_pixelsHit (d : Drawing) : d.pixelsHit.length = d.hitCount := by
  rw [pixelsHit_eq, List.length_filterMap_eq_countP, hitCount]
  apply List.countP_congr
  intro bit member
  rw [decide_eq_true_iff, Option.isSome_iff_exists, Hits, ← exists_and_left]
  exact exists_congr fun p => hitBy_eq_some_iff d.clip d.x d.y (mem_bits.mp member).2

theorem countP_pixelsHit (d : Drawing) (s : Screen) :
    (d.pixelsHit.countP fun p => s.pixels.get p) = d.litHitCount s := by
  rw [pixelsHit_eq, List.countP_filterMap, litHitCount]
  apply List.countP_congr
  intro bit member
  have hit (p : Pixel) : hitBy d.clip (d.x % 64).toNat (d.y % 32).toNat d.sprite bit = some p ↔
      IsSet d.sprite bit ∧ FallsOn d.clip d.x d.y bit p :=
    hitBy_eq_some_iff d.clip d.x d.y (mem_bits.mp member).2
  have found (o : Option Pixel) : (o.map fun p => s.pixels.get p).getD false = true ↔
      ∃ p, o = some p ∧ s.pixels.get p = true := by
    cases o <;> simp
  rw [found, decide_eq_true_iff, HitsLit, ← exists_and_left]
  simp only [hit, and_assoc]

variable (low : d.clip = true ∨ d.sprite.length ≤ 32)
include low

theorem litCount_on (s : Screen) :
    ((d.on s).1.litCount : Int) = s.litCount + d.hitCount - 2 * d.litHitCount s := by
  rw [← length_pixelsHit, ← countP_pixelsHit]
  exact count_foldl_toggle (nodup_hits d.x d.y low)

/-- The flag is raised by the lit pixels that are hit. -/
theorem collision_on (s : Screen) :
    (d.on s).2 = true ↔ ∃ p ∈ d.pixelsHit, s.pixels.get p = true := by
  have flag : (d.on s).2 = true ↔ _ ∨ _ := snd_foldl_toggle (nodup_hits d.x d.y low)
  rwa [Bool.false_eq_true, false_or] at flag

theorem collision_on_iff (s : Screen) : (d.on s).2 = true ↔ 0 < d.litHitCount s := by
  rw [collision_on low, ← countP_pixelsHit, List.countP_pos_iff]

/-- A pixel that was hit is not as it was. -/
theorem get_on_of_hit {p : Pixel} (hit : p ∈ d.pixelsHit) :
    (d.on s).1.pixels.get p = !s.pixels.get p := by
  have drawn : (d.on s).1.pixels.get p = (s.pixels.get p ^^ decide (Odd (d.pixelsHit.count p))) :=
    get_foldl_toggle d.pixelsHit p
  have once : d.pixelsHit.count p = 1 := List.count_eq_one_of_mem (nodup_hits d.x d.y low) hit
  rw [drawn, once]
  simp

/-- Of two equal drawings one after the other, the first one finds a hit pixel lit or the second
one does. -/
theorem collision_twice (s : Screen) :
    (d.on s).2 = true ∨ (d.on (d.on s).1).2 = true ↔ 0 < d.hitCount := by
  rw [collision_on low, collision_on low, ← length_pixelsHit, List.length_pos_iff_exists_mem]
  constructor
  · rintro (⟨p, hit, -⟩ | ⟨p, hit, -⟩) <;> exact ⟨p, hit⟩
  · rintro ⟨p, hit⟩
    cases lit : s.pixels.get p with
    | true => exact .inl ⟨p, hit, lit⟩
    | false =>
      refine .inr ⟨p, hit, ?_⟩
      rw [get_on_of_hit low hit, lit, Bool.not_false]

end Drawing

namespace Screen

/-- Drawings act on the frame like a commutative group of which each element is its own inverse: in
any order they leave the same pixels, and made once more in any order they bring the old ones back.
If a drawing is clipped or has at most as many rows as the frame, the number of lit pixels grows by
its hits and shrinks by twice its hits on lit pixels, the collision flag stays low exactly if the
number grew by the hits, and of two such drawings one after the other at least one collides exactly
if there is a hit. -/
theorem drawings_act (s : Screen) :
    (∀ drawings other : List Drawing, drawings.Perm other →
      (s.drawAll drawings).pixels = (s.drawAll other).pixels ∧
      ((s.drawAll drawings).drawAll other).pixels = s.pixels) ∧
    ∀ d : Drawing, d.clip = true ∨ d.sprite.length ≤ 32 →
      let drawn := d.on s
      (drawn.1.litCount : Int) = s.litCount + d.hitCount - 2 * d.litHitCount s ∧
      (drawn.2 = false ↔ drawn.1.litCount = s.litCount + d.hitCount) ∧
      (drawn.2 = true ∨ (d.on drawn.1).2 = true ↔ 0 < d.hitCount) := by
  refine ⟨fun drawings other perm => ?_, fun d low => ?_⟩
  · exact ⟨s.pixels_drawAll_of_perm perm, s.pixels_drawAll_again perm⟩
  · have account := Drawing.litCount_on low s
    refine ⟨account, ?_, Drawing.collision_twice low s⟩
    -- With the account, growing by all hits says that no hit fell on a lit pixel.
    rw [← Bool.not_eq_true, Drawing.collision_on_iff low]
    omega

/-- A row of eight bits across the left edge and a clipped column drawn over it, in both orders. -/
theorem drawings_act_overlapping :
    let row : Drawing := ⟨-2, 31, [0xFF], false⟩
    let column : Drawing := ⟨0, 30, [0x80, 0x80, 0x80], true⟩
    let drawn := row.on initial
    [row, column].Perm [column, row] ∧
      (initial.drawAll [row, column]).pixels = (initial.drawAll [column, row]).pixels ∧
      ((initial.drawAll [row, column]).drawAll [column, row]).pixels = initial.pixels ∧
      (row.clip = true ∨ row.sprite.length ≤ 32) ∧ row.hitCount = 8 ∧
      (drawn.2 = true ∨ (row.on drawn.1).2 = true) := by
  intro row column drawn
  have perm : [row, column].Perm [column, row] := .swap ..
  have low : row.clip = true ∨ row.sprite.length ≤ 32 := by decide
  have count : row.hitCount = 8 := row.length_pixelsHit.symm.trans (by decide)
  obtain ⟨order, account⟩ := drawings_act initial
  obtain ⟨same, back⟩ := order _ _ perm
  obtain ⟨-, -, twice⟩ := account row low
  exact ⟨perm, same, back, low, count, twice.mpr (by rw [count]; decide)⟩

end Screen

end Chip8
