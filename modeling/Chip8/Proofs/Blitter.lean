import Chip8.Proofs.Pattern
import Chip8.Proofs.Pixels
import Chip8.Proofs.Strict
import Mathlib.Data.List.Nodup
import Mathlib.Data.List.ProdSigma

/-! The sequential blitter: a sprite drawn bit by bit, row after row. No two bits share a pixel, so
it leaves the picture and the collision of the mask that is drawn at once. -/
namespace Chip8

namespace Sprite

/-- A bit that is set turns its pixel over. Where the pixel was lit, that is a collision. -/
def plot (bit : Bool) (x : Fin 64) (y : Fin 32) (p : Display × Bool) : Display × Bool :=
  if bit then (p.1.toggle x y, p.2 || p.1.pixel x y) else p

/-- The `n` rows from the address `i` on, each from its most significant bit to its least. -/
def plotRows (m : Memory) (i x y n : Nat) (d : Display) : Display × Bool :=
  (List.range n).foldl (fun p r =>
    (List.range 8).foldl (fun p c =>
      plot ((m.filled (i + r)).toNat.testBit (7 - c))
        (Fin.ofNat 64 (x + c)) (Fin.ofNat 32 (y + r)) p) p) (d, false)

/-! ### A list of dots -/

structure Dot where
  bit : Bool
  x : Fin 64
  y : Fin 32

def Dot.place (t : Dot) : Fin 64 × Fin 32 := (t.x, t.y)

def plotAll (l : List Dot) (p : Display × Bool) : Display × Bool :=
  l.foldl (fun p t => plot t.bit t.x t.y p) p

theorem plotAll_cons (t : Dot) (l : List Dot) (p : Display × Bool) :
    plotAll (t :: l) p = plotAll l (plot t.bit t.x t.y p) := rfl

theorem pixel_toggle_of_ne (d : Display) {t u : Dot} (h : t.place ≠ u.place) :
    (d.toggle t.x t.y).pixel u.x u.y = d.pixel u.x u.y := by
  have hne : ¬(t.x = u.x ∧ t.y = u.y) := fun he => h (Prod.ext he.1 he.2)
  simp [Bitmap.pixel_toggle, hne]

/-- Dots on different pixels do not disturb each other: each finds the pixel as it was at first. -/
theorem plotAll_spec {l : List Dot} (h : (l.map Dot.place).Nodup) (d : Display) (hit : Bool) :
    (∀ x y, (plotAll l (d, hit)).1.pixel x y =
      (d.pixel x y ^^ l.any fun t => t.bit && t.place = (x, y))) ∧
    (plotAll l (d, hit)).2 = (hit || l.any fun t => t.bit && d.pixel t.x t.y) := by
  induction l generalizing d hit with
  | nil => simp [plotAll]
  | cons t l ih =>
    obtain ⟨hout, hl⟩ := List.nodup_cons.1 h
    have hne : ∀ u ∈ l, t.place ≠ u.place := fun u hu he => hout (he ▸ List.mem_map_of_mem hu)
    rw [plotAll_cons, plot]
    cases hb : t.bit with
    | false => simpa [hb] using ih hl d hit
    | true =>
      obtain ⟨hp, hc⟩ := ih hl (d.toggle t.x t.y) (hit || d.pixel t.x t.y)
      refine ⟨fun x y => ?_, ?_⟩
      · rw [if_pos rfl, hp, Bitmap.pixel_toggle, List.any_cons, hb, Bool.true_and]
        by_cases he : t.place = (x, y)
        · have hnone : (l.any fun u => u.bit && u.place = (x, y)) = false := by
            simp only [List.any_eq_false, Bool.and_eq_true, decide_eq_true_eq, not_and]
            exact fun u hu _ hux => hne u hu (he.trans hux.symm)
          have hxy : t.x = x ∧ t.y = y := Prod.ext_iff.1 he
          simp [hnone, he, hxy]
        · have hxy : ¬(t.x = x ∧ t.y = y) := fun hxy => he (Prod.ext hxy.1 hxy.2)
          simp [he, hxy]
      · have hsame : (l.any fun u => u.bit && (d.toggle t.x t.y).pixel u.x u.y) =
            l.any fun u => u.bit && d.pixel u.x u.y := by
          rw [Bool.eq_iff_iff, List.any_eq_true, List.any_eq_true]
          exact exists_congr fun u => and_congr_right fun hu => by
            rw [pixel_toggle_of_ne d (hne u hu)]
        rw [if_pos rfl, hc, hsame, List.any_cons, hb, Bool.true_and, Bool.or_assoc]

/-! ### The dots of a sprite -/

def dot (m : Memory) (i x y : Nat) (rc : Nat × Nat) : Dot where
  bit := (m.filled (i + rc.1)).toNat.testBit (7 - rc.2)
  x := Fin.ofNat 64 (x + rc.2)
  y := Fin.ofNat 32 (y + rc.1)

def dots (m : Memory) (i x y n : Nat) : List Dot :=
  (List.range n ×ˢ List.range 8).map (dot m i x y)

theorem plotRows_eq_plotAll (m : Memory) (i x y n : Nat) (d : Display) :
    plotRows m i x y n d = plotAll (dots m i x y n) (d, false) := by
  simp only [plotRows, plotAll, dots, SProd.sprod, List.product, List.foldl_flatMap,
    List.foldl_map, dot]

/-- Columns from `x` on, around the screen, to reach a column. -/
def across (column x : Nat) : Nat := (column + 64 - x % 64) % 64

theorem place_dot_iff {m : Memory} {i x y r c : Nat} (hr : r < 32) (hc : c < 8) (px : Fin 64)
    (py : Fin 32) :
    (dot m i x y (r, c)).place = (px, py) ↔ r = offset py y ∧ c = across px x := by
  have hpx := px.isLt
  have hpy := py.isLt
  simp only [Dot.place, dot, Prod.mk.injEq, Fin.ext_iff, Fin.val_ofNat, offset, across]
  omega

theorem nodup_places (m : Memory) (i x y : Nat) {n : Nat} (hn : n ≤ 32) :
    ((dots m i x y n).map Dot.place).Nodup := by
  rw [dots, List.map_map]
  refine List.Nodup.map_on ?_ (List.nodup_range.product List.nodup_range)
  rintro ⟨r, c⟩ h ⟨r', c'⟩ h' he
  simp only [List.mem_product, List.mem_range] at h h'
  simp only [Function.comp_apply, Dot.place, dot, Prod.mk.injEq, Fin.ext_iff, Fin.val_ofNat] at he ⊢
  omega

theorem getMsbD_row (b : UInt8) (x : Nat) {column : Nat} (hc : column < 64) :
    (row b (x % 64)).getMsbD column =
      (decide (across column x < 8) && b.toNat.testBit (7 - across column x)) := by
  have hlane (k : Nat) : (b.toBitVec.setWidth 64 <<< 56).getMsbD k =
      (decide (k < 8) && b.toNat.testBit (7 - k)) := by
    have hk : k + 56 + 8 - 64 = k := by omega
    rw [BitVec.getMsbD_shiftLeft, BitVec.getMsbD_setWidth, hk, decide_eq_true (by omega),
      Bool.true_and, BitVec.getMsbD_eq_getLsbD, ← BitVec.testBit_toNat, UInt8.toNat_toBitVec]
  rw [row, BitVec.getMsbD_rotateRight, decide_eq_true hc, Bool.true_and, Nat.mod_mod]
  split
  · next hlt =>
    rw [show (64 + column - x % 64) % 64 = across column x by simp only [across]; omega, hlane]
  · next hge =>
    rw [show column - x % 64 = across column x by simp only [across]; omega, hlane]

theorem pixel_mask (m : Memory) {i n : Nat} (x y : Nat) (hi : i + n ≤ 4096) (hn : n ≤ 32)
    (px : Fin 64) (py : Fin 32) :
    (mask m i x y n).pixel px py =
      (dots m i x y n).any fun t => t.bit && t.place = (px, py) := by
  have hdots : ((dots m i x y n).any fun t => t.bit && t.place = (px, py)) = true ↔
      offset py y < n ∧ across px x < 8 ∧
        (m.filled (i + offset py y)).toNat.testBit (7 - across px x) = true := by
    simp only [dots, List.any_map, List.any_eq_true, Function.comp_apply, Bool.and_eq_true,
      decide_eq_true_eq, Prod.exists, List.mem_product, List.mem_range]
    constructor
    · rintro ⟨r, c, ⟨hr, hc⟩, hbit, hplace⟩
      obtain ⟨rfl, rfl⟩ := (place_dot_iff (by omega) hc px py).1 hplace
      exact ⟨hr, hc, hbit⟩
    · rintro ⟨hr, hc, hbit⟩
      exact ⟨_, _, ⟨hr, hc⟩, hbit, (place_dot_iff (by omega) hc px py).2 ⟨rfl, rfl⟩⟩
  rw [Bool.eq_iff_iff, hdots, Bitmap.pixel_eq, getElem_mask m x y hi py.isLt]
  by_cases hr : offset py y < n
  · have ha : i + offset py y < 4096 := by omega
    rw [if_pos hr, getMsbD_row _ _ px.isLt, m.peek_of_lt ha, m.filled_of_lt ha]
    simp [hr]
  · simp [hr]

theorem overlaps_mask (m : Memory) {i n : Nat} (x y : Nat) (hi : i + n ≤ 4096) (hn : n ≤ 32)
    (d : Display) :
    d.overlaps (mask m i x y n) = (dots m i x y n).any fun t => t.bit && d.pixel t.x t.y := by
  rw [Bool.eq_iff_iff, Bitmap.overlaps_iff, List.any_eq_true]
  simp only [pixel_mask m x y hi hn, List.any_eq_true, Bool.and_eq_true, decide_eq_true_eq]
  constructor
  · rintro ⟨px, py, hlit, t, ht, hbit, hplace⟩
    obtain ⟨rfl, rfl⟩ := Prod.ext_iff.1 hplace
    exact ⟨t, ht, hbit, hlit⟩
  · rintro ⟨t, ht, hbit, hlit⟩
    exact ⟨t.x, t.y, hlit, t, ht, hbit, rfl⟩

/-- The mask drawn at once is the sprite drawn bit by bit. -/
theorem blit_mask (m : Memory) {i n : Nat} (x y : Nat) (hi : i + n ≤ 4096) (hn : n ≤ 32)
    (d : Display) : blit d (mask m i x y n) = plotRows m i x y n d := by
  obtain ⟨hpixel, hhit⟩ := plotAll_spec (nodup_places m i x y hn) d false
  rw [plotRows_eq_plotAll]
  refine Prod.ext (Bitmap.ext_pixel fun px py => ?_) ?_
  · rw [hpixel, ← pixel_mask m x y hi hn, blit, Bitmap.pixel_xor]
  · rw [hhit, Bool.false_or, ← overlaps_mask m x y hi hn, blit]

/-- An origin counts modulo the screen. -/
theorem mask_mod (m : Memory) (index x y height : Int) :
    mask m index (x % 64) (y % 32) height = mask m index x y height := by
  have hline (line : Nat) : ((line : Int) - y % 32) % 32 = ((line : Int) - y) % 32 := by omega
  simp only [mask, hline, Int.emod_emod]

end Sprite

namespace Machine
open Instruction

theorem execute_draw (m : Machine) (x y n : Fin 16) :
    m.execute (0xD000 + 0x100 * x.val + 0x10 * y.val + n.val : Nat) = m.draw x y n := by
  change m.execute (word 0xD x y n) = _
  obtain ⟨ho, hx, hy, hn⟩ := decode_word 0xD x y n
  simp only [execute, dispatch, ho, hx, hy, hn]

/-- A sprite that lies inside memory is drawn as if bit by bit: from the registers as they were, and
with the collision in VF whatever registers give the origin. Nothing but the picture and VF changes.
An origin counts modulo the screen only. -/
theorem draw_sequential (m : Machine) (x y n : Fin 16) (h : m.i.toNat + n.val ≤ 4096) :
    (let drawn := Sprite.plotRows m.memory m.i.toNat (m.reg x).toNat (m.reg y).toNat n m.display
     m.execute (0xD000 + 0x100 * x.val + 0x10 * y.val + n.val : Nat) =
      { m with display := drawn.1, v := m.v.set 15 (if drawn.2 then 1 else 0) }) ∧
    ∀ (memory : Memory) (index a b height : Int),
      Sprite.mask memory index a b height =
        Sprite.mask memory index (a % 64) (b % 32) height := by
  refine ⟨?_, fun memory index a b height => (Sprite.mask_mod memory index a b height).symm⟩
  have hn : n.val ≤ 32 := by omega
  have hdraw : m.draw x y n = _ := if_pos h
  rw [execute_draw, hdraw, ← Sprite.blit_mask m.memory _ _ h hn]
  rfl

/-- Draws the last three bytes of memory around the corner of the screen, where one pixel is lit; VF
gives both coordinates. -/
def drawsAtCorner : Machine :=
  { create ⟨0, 0⟩ with
    memory := Memory.zeros.store 0xFFD [0x81, 0x00, 0xFF]
    display := Bitmap.blank.toggle 0 0
    v := (Vector.replicate 16 0).set 15 62
    i := 0xFFD }

theorem draw_sequential_drawsAtCorner :
    drawsAtCorner.i.toNat + (3 : Fin 16).val ≤ 4096 ∧
      (drawsAtCorner.execute 0xDFF3).reg 15 = 1 ∧
      (drawsAtCorner.execute 0xDFF3).display.pixel 0 0 = false ∧
      (drawsAtCorner.execute 0xDFF3).display.pixel 5 0 = true := by
  have hi : drawsAtCorner.i.toNat + (3 : Fin 16).val ≤ 4096 := by decide
  have hdrawn : drawsAtCorner.execute 0xDFF3 = _ := (draw_sequential drawsAtCorner 15 15 3 hi).1
  refine ⟨hi, ?_⟩
  rw [hdrawn]
  decide +kernel

end Machine
end Chip8
