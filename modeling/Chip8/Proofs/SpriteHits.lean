import Chip8.Screen
import Mathlib.Algebra.Ring.Parity
import Mathlib.Data.List.Nodup
import Mathlib.Data.List.ProdSigma
import Mathlib.Data.Nat.Bitwise

/-! # The hits of a sprite

Drawing toggles one pixel for each hit, so a pixel changes by the parity of its hits. Unless rows
of the sprite lie on top of each other, which takes wrapping and more rows than the frame has, no
pixel is hit twice; then the collision flag tells whether a pixel was turned off.
-/

namespace Chip8

def Pixel.column (p : Pixel) : Nat := p.val % screenWidth

def Pixel.row (p : Pixel) : Nat := p.val / screenWidth

namespace Screen

/-- The places of the bits of a sprite, by row and column, in the order of drawing. -/
def bits (rows : Nat) : List (Nat × Nat) := List.range rows ×ˢ List.range 8

/-- The bit at a place of a sprite is set; the first column has the most significant bit. -/
def IsSet (sprite : List UInt8) (bit : Nat × Nat) : Prop :=
  (sprite.getD bit.1 0).toNat &&& (0x80 >>> bit.2) ≠ 0

/-- A bit of a sprite whose origin is any pair of integers falls on a pixel. Past the right and the
lower edge it falls on none when clipping and wraps around otherwise. -/
def FallsOn (clip : Bool) (x y : Int) (bit : Nat × Nat) (p : Pixel) : Prop :=
  let column := x % 64 + bit.2
  let row := y % 32 + bit.1
  if clip then column = p.column ∧ row = p.row
  else column % 64 = p.column ∧ row % 32 = p.row

instance (sprite : List UInt8) (bit : Nat × Nat) : Decidable (IsSet sprite bit) := by
  unfold IsSet
  infer_instance

instance (clip : Bool) (x y : Int) (bit : Nat × Nat) (p : Pixel) :
    Decidable (FallsOn clip x y bit p) := by
  unfold FallsOn
  infer_instance

/-- The number of set bits of a sprite that fall on a pixel. -/
def hitCount (clip : Bool) (x y : Int) (sprite : List UInt8) (p : Pixel) : Nat :=
  (bits sprite.length).countP fun bit => decide (IsSet sprite bit ∧ FallsOn clip x y bit p)

section Toggling

variable {hits : List Pixel} {state : Vector Bool (screenWidth * screenHeight) × Bool}

theorem get_toggle (p q : Pixel) :
    (toggle state q).1.get p = if q = p then !state.1.get p else state.1.get p := by
  have entry : (toggle state q).1.get p = if q.val = p.val then !state.1.get q else state.1.get p :=
    Vector.getElem_set q.isLt p.isLt
  rw [entry]
  by_cases same : q = p
  · rw [same, if_pos rfl, if_pos rfl]
  · rw [if_neg (Fin.val_ne_of_ne same), if_neg same]

/-- Each toggle of a pixel flips it. -/
theorem get_foldl_toggle (hits : List Pixel) (p : Pixel) :
    (hits.foldl toggle state).1.get p = (state.1.get p ^^ decide (Odd (hits.count p))) := by
  induction hits generalizing state with
  | nil => simp
  | cons q rest ih =>
    rw [List.foldl_cons, ih, get_toggle, List.count_cons]
    by_cases same : q = p
    · simp only [same, ↓reduceIte, beq_self_eq_true, Nat.odd_add_one, decide_not, Bool.not_xor,
        Bool.xor_not]
    · simp [same]

/-- If no pixel is toggled twice, the flag is raised exactly by the pixels that were lit. -/
theorem snd_foldl_toggle (once : hits.Nodup) :
    (hits.foldl toggle state).2 = true ↔ state.2 = true ∨ ∃ p ∈ hits, state.1.get p = true := by
  induction hits generalizing state with
  | nil => simp
  | cons q rest ih =>
    obtain ⟨apart, onceThen⟩ := List.nodup_cons.mp once
    have flag : (toggle state q).2 = (state.2 || state.1.get q) := rfl
    have untouched : ∀ p ∈ rest, (toggle state q).1.get p = state.1.get p := by
      intro p member
      rw [get_toggle, if_neg (ne_of_mem_of_not_mem member apart).symm]
    have later : (∃ p ∈ rest, (toggle state q).1.get p = true) ↔
        ∃ p ∈ rest, state.1.get p = true := by
      apply exists_congr
      intro p
      apply and_congr_right
      intro member
      rw [untouched p member]
    rw [List.foldl_cons, ih onceThen, flag, later, Bool.or_eq_true, List.exists_mem_cons_iff,
      or_assoc]

end Toggling

section Hits

variable {clip : Bool} {p : Pixel} {sprite : List UInt8} {bit : Nat × Nat}

/-- The pixel that a bit of a sprite hits, if it is set and falls on one. -/
def hitBy (clip : Bool) (x y : Nat) (sprite : List UInt8) (bit : Nat × Nat) : Option Pixel :=
  if bitAt (sprite.getD bit.1 0) bit.2 then landing clip (x + bit.2) (y + bit.1) else none

theorem mem_bits {rows : Nat} : bit ∈ bits rows ↔ bit.1 < rows ∧ bit.2 < 8 := by
  rw [bits, ← Prod.eta bit, List.mem_product, List.mem_range, List.mem_range]

theorem nodup_bits (rows : Nat) : (bits rows).Nodup :=
  List.nodup_range.product List.nodup_range

theorem bits_succ (rows : Nat) :
    bits (rows + 1) = (List.range 8).map (fun c => (0, c)) ++
      (bits rows).map fun bit => (bit.1 + 1, bit.2) := by
  have shifted (rows : List Nat) : rows.map Nat.succ ×ˢ List.range 8 =
      (rows ×ˢ List.range 8).map fun bit => (bit.1 + 1, bit.2) := by
    induction rows with
    | nil => rfl
    | cons r rest ih =>
      rw [List.map_cons, List.product_cons, List.product_cons, List.map_append, ih, List.map_map]
      rfl
  rw [bits, List.range_succ_eq_map, List.product_cons, shifted, ← bits]

/-- The pixels that a sprite hits, bit by bit. -/
theorem hitsFrom_eq (clip : Bool) (x y : Nat) (sprite : List UInt8) :
    hitsFrom clip x y sprite = (bits sprite.length).filterMap (hitBy clip x y sprite) := by
  induction sprite generalizing y with
  | nil => rfl
  | cons row rest ih =>
    have later : hitBy clip x y (row :: rest) ∘ (fun bit => (bit.1 + 1, bit.2)) =
        hitBy clip x (y + 1) rest := by
      funext bit
      simp only [Function.comp_apply, hitBy, List.getD_cons_succ, Nat.add_assoc, Nat.add_comm 1]
    rw [hitsFrom, ih, List.length_cons, bits_succ, List.filterMap_append, List.filterMap_map,
      List.filterMap_map, later]
    rfl

theorem bitAt_eq_true_iff (row : UInt8) {c : Nat} (column : c < 8) :
    bitAt row c = true ↔ row.toNat &&& (0x80 >>> c) ≠ 0 := by
  have mask : ∀ c < 8, 0x80 >>> c = 2 ^ (7 - c) := by decide
  rw [mask c column, Nat.and_two_pow, bitAt]
  cases row.toNat.testBit (7 - c) <;> simp

theorem landing_eq_some_iff (clip : Bool) (px py : Nat) (p : Pixel) :
    landing clip px py = some p ↔
      if clip then px = p.column ∧ py = p.row else px % 64 = p.column ∧ py % 32 = p.row := by
  have bound : p.val < 64 * 32 := p.isLt
  unfold Pixel.column Pixel.row landing screenWidth screenHeight
  cases clip with
  | false =>
    simp only [Bool.false_eq_true, ↓reduceIte, Option.some_inj, Fin.ext_iff]
    omega
  | true =>
    by_cases past : 64 ≤ px ∨ 32 ≤ py
    · simp only [↓reduceIte, past, ↓reduceDIte, reduceCtorEq, false_iff]
      omega
    · simp only [↓reduceIte, past, ↓reduceDIte, Option.some_inj, Fin.ext_iff]
      omega

/-- A bit hits a pixel if it is set and falls on it. -/
theorem hitBy_eq_some_iff (clip : Bool) (x y : Int) (column : bit.2 < 8) :
    hitBy clip (x % 64).toNat (y % 32).toNat sprite bit = some p ↔
      IsSet sprite bit ∧ FallsOn clip x y bit p := by
  have falls : landing clip ((x % 64).toNat + bit.2) ((y % 32).toNat + bit.1) = some p ↔
      FallsOn clip x y bit p := by
    rw [landing_eq_some_iff, FallsOn]
    cases clip <;> simp only [Bool.false_eq_true, ↓reduceIte] <;> omega
  rw [hitBy, IsSet, ← bitAt_eq_true_iff _ column]
  by_cases isSet : bitAt (sprite.getD bit.1 0) bit.2 = true
  · simp only [isSet, ↓reduceIte, falls, true_and]
  · simp only [isSet, Bool.false_eq_true, ↓reduceIte, reduceCtorEq, false_and]

theorem count_hits (clip : Bool) (x y : Int) (sprite : List UInt8) (p : Pixel) :
    (hits clip x y sprite).count p = hitCount clip x y sprite p := by
  rw [hits, hitsFrom_eq, List.count_filterMap, hitCount]
  apply List.countP_congr
  intro bit member
  rw [beq_iff_eq, decide_eq_true_iff, hitBy_eq_some_iff clip x y (mem_bits.mp member).2]

/-- Two bits of a sprite fall on one pixel only if it wraps onto itself. -/
theorem eq_of_fallsOn {x y : Int} {other : Nat × Nat} (low : clip = true ∨ sprite.length ≤ 32)
    (inSprite : bit ∈ bits sprite.length) (otherInSprite : other ∈ bits sprite.length)
    (falls : FallsOn clip x y bit p) (otherFalls : FallsOn clip x y other p) : bit = other := by
  obtain ⟨row, column⟩ := mem_bits.mp inSprite
  obtain ⟨otherRow, otherColumn⟩ := mem_bits.mp otherInSprite
  unfold FallsOn at falls otherFalls
  cases clip
  · simp only [Bool.false_eq_true, ↓reduceIte, false_or] at falls otherFalls low
    ext <;> omega
  · simp only [↓reduceIte] at falls otherFalls
    ext <;> omega

theorem nodup_hits (x y : Int) (low : clip = true ∨ sprite.length ≤ 32) :
    (hits clip x y sprite).Nodup := by
  rw [hits, hitsFrom_eq, List.Nodup, List.pairwise_filterMap]
  refine (nodup_bits sprite.length).imp_of_mem ?_
  rintro bit other inSprite otherInSprite apart p hit _ otherHit rfl
  rw [hitBy_eq_some_iff clip x y (mem_bits.mp inSprite).2] at hit
  rw [hitBy_eq_some_iff clip x y (mem_bits.mp otherInSprite).2] at otherHit
  exact apart (eq_of_fallsOn low inSprite otherInSprite hit.2 otherHit.2)

end Hits

/-- A drawn pixel is the old one toggled once for each hit. -/
theorem get_draw (s : Screen) (x y : Int) (sprite : List UInt8) (clip : Bool) (p : Pixel) :
    (s.draw x y sprite clip).1.pixels.get p =
      (s.pixels.get p ^^ decide (Odd (hitCount clip x y sprite p))) := by
  rw [← count_hits]
  exact get_foldl_toggle (hits clip x y sprite) p

/-- Without a pixel hit twice, the collision flag tells whether one was turned off. -/
theorem collision_draw (s : Screen) (x y : Int) {sprite : List UInt8} {clip : Bool}
    (low : clip = true ∨ sprite.length ≤ 32) :
    (s.draw x y sprite clip).2 = true ↔
      ∃ p, s.pixels.get p = true ∧ (s.draw x y sprite clip).1.pixels.get p = false := by
  have once := nodup_hits x y low
  have flag : ((hits clip x y sprite).foldl toggle (s.pixels, false)).2 = true ↔ _ :=
    snd_foldl_toggle once
  rw [Bool.false_eq_true, false_or] at flag
  refine flag.trans (exists_congr fun p => ?_)
  rw [get_draw, ← count_hits]
  by_cases hit : p ∈ hits clip x y sprite
  · rw [List.count_eq_one_of_mem once hit]
    simp [hit]
  · rw [List.count_eq_zero_of_not_mem hit]
    simp [hit]

/-- Whatever the frame, the origin, the sprite and the treatment of edges: a drawn sprite toggles
each pixel once for each of its set bits that fall on it, and sets the redraw flag. If it is clipped
or has at most as many rows as the frame, the collision flag is raised exactly if a lit pixel was
turned off. -/
theorem draw_toggles_hits (s : Screen) (x y : Int) (sprite : List UInt8) (clip : Bool) :
    let drawn := s.draw x y sprite clip
    (∀ p, drawn.1.pixels.get p =
      (s.pixels.get p ^^ decide (Odd (hitCount clip x y sprite p)))) ∧
    drawn.1.dirty = true ∧
    (clip = true ∨ sprite.length ≤ 32 →
      (drawn.2 = true ↔ ∃ p, s.pixels.get p = true ∧ drawn.1.pixels.get p = false)) :=
  ⟨s.get_draw x y sprite clip, rfl, s.collision_draw x y⟩

/-- Two rows drawn over the lower right corner of a lit frame wrap around both edges. -/
theorem draw_toggles_hits_corner :
    let lit : Screen := ⟨Vector.replicate _ true, false⟩
    let sprite : List UInt8 := [0xFF, 0xFF]
    let drawn := lit.draw (-2) 31 sprite false
    (false = true ∨ sprite.length ≤ 32) ∧ drawn.1.pixels.get 0 = false ∧
      drawn.2 = true ∧ drawn.1.dirty = true := by
  intro lit sprite drawn
  have low : false = true ∨ sprite.length ≤ 32 := by decide
  obtain ⟨pixels, dirty, flag⟩ := draw_toggles_hits lit (-2) 31 sprite false
  have wasLit : lit.pixels.get 0 = true := by simp [lit, Vector.get]
  have hit : hitCount false (-2) 31 sprite 0 = 1 := by decide
  have unlit : drawn.1.pixels.get 0 = false := by
    rw [pixels, wasLit, hit]
    rfl
  exact ⟨low, unlit, (flag low).mpr ⟨0, wasLit, unlit⟩, dirty⟩

end Screen

end Chip8
