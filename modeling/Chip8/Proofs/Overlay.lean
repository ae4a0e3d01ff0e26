import Chip8.Proofs.Blitter
import Mathlib.Data.List.Basic

/-! Sprites laid over each other: a pixel ends turned over as often as a mask lights it. So order does
not count, pairs cancel, and the only trace that one draw leaves for the next is VF. -/
namespace Chip8

namespace Sprite

def blitAll (masks : List Display) (d : Display) : Display :=
  masks.foldl (fun d s => (blit d s).1) d

variable {masks masks' : List Display} {d : Display}

theorem blitAll_cons (s : Display) (masks : List Display) (d : Display) :
    blitAll (s :: masks) d = blitAll masks (d.xor s) := rfl

/-- Every mask that lights a pixel turns it over. -/
theorem pixel_blitAll (masks : List Display) (d : Display) (px : Fin 64) (py : Fin 32) :
    (blitAll masks d).pixel px py =
      (d.pixel px py ^^ decide (masks.countP (·.pixel px py) % 2 = 1)) := by
  induction masks generalizing d with
  | nil => simp [blitAll]
  | cons s masks ih =>
    rw [blitAll_cons, ih, Bitmap.pixel_xor, Bool.xor_assoc]
    congr 1
    rw [List.countP_cons]
    cases s.pixel px py with
    | false => simp
    | true =>
      rw [Bool.true_xor, ← decide_not, if_pos rfl]
      exact decide_eq_decide.2 (by omega)

theorem blitAll_perm (h : masks.Perm masks') (d : Display) : blitAll masks d = blitAll masks' d := by
  apply Bitmap.ext_pixel
  intro px py
  rw [pixel_blitAll, pixel_blitAll, h.countP_eq]

/-- A mask that occurs an even number of times can be left out. -/
theorem blitAll_filter {s : Display} (h : masks.count s % 2 = 0) (d : Display) :
    blitAll masks d = blitAll (masks.filter (· != s)) d := by
  apply Bitmap.ext_pixel
  intro px py
  rw [pixel_blitAll, pixel_blitAll]
  congr 1
  have hsplit : masks.countP (·.pixel px py) =
      (masks.filter (· == s)).countP (·.pixel px py) +
        (masks.filter (· != s)).countP (·.pixel px py) :=
    List.countP_eq_countP_filter_add masks (·.pixel px py) (· == s)
  rw [List.filter_beq, List.countP_replicate] at hsplit
  apply decide_eq_decide.2
  split at hsplit <;> omega

/-! ### Where a sprite falls -/

/-- A bit of the sprite at the address `i`, drawn from an origin on, falls on the pixel. -/
def Falls (m : Memory) (i x y n : Nat) (px : Fin 64) (py : Fin 32) : Prop :=
  ∃ r < n, ∃ c < 8, (m.filled (i + r)).toNat.testBit (7 - c) = true ∧
    px.val = (x + c) % 64 ∧ py.val = (y + r) % 32

theorem pixel_mask_iff (m : Memory) {i n : Nat} (x y : Nat) (hi : i + n ≤ 4096) (hn : n ≤ 32)
    (px : Fin 64) (py : Fin 32) :
    (mask m i x y n).pixel px py = true ↔ Falls m i x y n px py := by
  rw [pixel_mask m x y hi hn]
  simp only [dots, List.any_map, List.any_eq_true, Function.comp_apply, Bool.and_eq_true,
    decide_eq_true_eq, Prod.exists, List.mem_product, List.mem_range]
  simp only [Dot.place, dot, Prod.mk.injEq, Fin.ext_iff, Fin.val_ofNat, Falls]
  constructor
  · rintro ⟨r, c, ⟨hr, hc⟩, hbit, hx, hy⟩
    exact ⟨r, hr, c, hc, hbit, hx.symm, hy.symm⟩
  · rintro ⟨r, hr, c, hc, hbit, hx, hy⟩
    exact ⟨r, c, ⟨hr, hc⟩, hbit, hx.symm, hy.symm⟩

/-- A draw as its word names it. -/
structure Draw where
  x : Fin 16
  y : Fin 16
  n : Fin 16

namespace Draw

def word (t : Draw) : Nat := Instruction.word 0xD t.x t.y t.n

def mask (t : Draw) (m : Machine) : Display :=
  Sprite.mask m.memory m.i.toNat (m.reg t.x).toNat (m.reg t.y).toNat t.n.val

def FallsOn (t : Draw) (m : Machine) (px : Fin 64) (py : Fin 32) : Prop :=
  Falls m.memory m.i.toNat (m.reg t.x).toNat (m.reg t.y).toNat t.n.val px py

theorem pixel_mask_iff {t : Draw} {m : Machine} (h : m.i.toNat + t.n.val ≤ 4096) (px : Fin 64)
    (py : Fin 32) : (t.mask m).pixel px py = true ↔ t.FallsOn m px py :=
  Sprite.pixel_mask_iff m.memory _ _ h (by omega) px py

/-- The sprite lies inside memory, and its origin is not read from VF. -/
structure Plain (t : Draw) (m : Machine) : Prop where
  inside : m.i.toNat + t.n.val ≤ 4096
  x_ne : t.x ≠ 15
  y_ne : t.y ≠ 15

end Draw

end Sprite

namespace Machine
open Sprite
variable {m : Machine} {t : Draw}

/-- The machine behind a picture of sprites: VF and the display are all that differs. -/
def drawn (m : Machine) (d : Display) (f : UInt8) : Machine :=
  ({ m with display := d }).setRegister 15 f

theorem reg_drawn (m : Machine) (d : Display) (f : UInt8) {k : Fin 16} (hk : k ≠ 15) :
    (m.drawn d f).reg k = m.reg k :=
  reg_setRegister_of_ne _ f hk

theorem mask_drawn (h : t.Plain m) (d : Display) (f : UInt8) :
    t.mask (m.drawn d f) = t.mask m := by
  rw [Draw.mask, reg_drawn m d f h.x_ne, reg_drawn m d f h.y_ne]
  rfl

theorem plain_drawn (h : t.Plain m) (d : Display) (f : UInt8) : t.Plain (m.drawn d f) :=
  ⟨h.inside, h.x_ne, h.y_ne⟩

theorem drawn_drawn (m : Machine) (d d' : Display) (f f' : UInt8) :
    (m.drawn d f).drawn d' f' = m.drawn d' f' :=
  congrArg (fun v => { m with display := d', v }) (Vector.set_set ..)

theorem flag_drawn (m : Machine) (d : Display) (b : Bool) :
    (m.drawn d b.toUInt8).reg 15 = 1 ↔ b = true := by
  have hf : (m.drawn d b.toUInt8).reg 15 = b.toUInt8 := reg_setRegister_self m 15 _
  rw [hf]
  cases b <;> decide

theorem drawn_self (m : Machine) : m.drawn m.display (m.reg 15) = m := by
  have hv : m.v.set 15 (m.reg 15) = m.v := Vector.set_getElem_self ..
  exact congrArg (fun v => ({ m with v } : Machine)) hv

theorem execute_plain (h : t.Plain m) :
    m.execute t.word =
      m.drawn (m.display.xor (t.mask m)) (m.display.overlaps (t.mask m)).toUInt8 := by
  have hdraw : m.draw t.x t.y t.n = _ := if_pos h.inside
  exact (execute_draw m t.x t.y t.n).trans hdraw

/-- A run of draws lays all masks over the picture. Each is that of the machine in front of the run,
since no draw reads what another has written. -/
theorem execute_draws (ts : List Draw) (m : Machine) (h : ∀ t ∈ ts, t.Plain m) :
    ∃ f, ts.foldl (fun m t => m.execute t.word) m =
      m.drawn (blitAll (ts.map (·.mask m)) m.display) f := by
  induction ts generalizing m with
  | nil => exact ⟨m.reg 15, (drawn_self m).symm⟩
  | cons t ts ih =>
    obtain ⟨ht, hts⟩ := List.forall_mem_cons.1 h
    have hrest (d : Display) (f : UInt8) : ts.map (·.mask (m.drawn d f)) = ts.map (·.mask m) :=
      List.map_congr_left fun u hu => mask_drawn (hts u hu) d f
    obtain ⟨f, hf⟩ := ih (m.execute t.word) fun u hu => by
      rw [execute_plain ht]
      exact plain_drawn (hts u hu) _ _
    refine ⟨f, ?_⟩
    rw [List.foldl_cons, hf, execute_plain ht, hrest, drawn_drawn]
    rfl

theorem display_draws_perm {ts ts' : List Draw} (hp : ts.Perm ts') (h : ∀ t ∈ ts, t.Plain m) :
    (ts.foldl (fun m t => m.execute t.word) m).display =
      (ts'.foldl (fun m t => m.execute t.word) m).display := by
  obtain ⟨f, hf⟩ := execute_draws ts m h
  obtain ⟨f', hf'⟩ := execute_draws ts' m fun t ht => h t (hp.mem_iff.2 ht)
  rw [hf, hf']
  exact blitAll_perm (hp.map _) m.display

/-- The second draw undoes the first, and collides where the first has lit a dark pixel. -/
theorem execute_twice (h : t.Plain m) :
    (m.execute t.word).execute t.word =
      m.drawn m.display ((m.display.xor (t.mask m)).overlaps (t.mask m)).toUInt8 := by
  have hback : (m.display.xor (t.mask m)).xor (t.mask m) = m.display := by
    apply Bitmap.ext_pixel
    intro px py
    rw [Bitmap.pixel_xor, Bitmap.pixel_xor, Bool.xor_assoc, Bool.xor_self, Bool.xor_false]
  rw [execute_plain h, execute_plain (plain_drawn h _ _), mask_drawn h, drawn_drawn]
  exact congrArg (m.drawn · _) hback

/-- Masks laid over a picture count modulo two at every pixel. So a draw is its own inverse but for
VF, which tells of a lit pixel under the sprite at first and of a dark one the second time, and
draws commute. -/
theorem draws_are_xor :
    (∀ (masks : List Display) (d : Display),
      (∀ px py, (blitAll masks d).pixel px py =
        (d.pixel px py ^^ decide (masks.countP (·.pixel px py) % 2 = 1))) ∧
      (∀ masks', masks.Perm masks' → blitAll masks d = blitAll masks' d) ∧
      ∀ s, masks.count s % 2 = 0 → blitAll masks d = blitAll (masks.filter (· != s)) d) ∧
    (∀ (m : Machine) (t : Draw), t.Plain m →
      let once := m.execute t.word
      let twice := once.execute t.word
      twice = m.drawn m.display (twice.reg 15) ∧
      (once.reg 15 = 1 ↔ ∃ px py, t.FallsOn m px py ∧ m.display.pixel px py = true) ∧
      (twice.reg 15 = 1 ↔ ∃ px py, t.FallsOn m px py ∧ m.display.pixel px py = false)) ∧
    ∀ (m : Machine) (t u : Draw), t.Plain m → u.Plain m →
      ((m.execute t.word).execute u.word).display =
        ((m.execute u.word).execute t.word).display := by
  refine ⟨fun masks d => ⟨pixel_blitAll masks d, fun _ hp => blitAll_perm hp d,
    fun _ hs => blitAll_filter hs d⟩, ?_, ?_⟩
  · intro m t h once twice
    have hmask (px : Fin 64) (py : Fin 32) := Draw.pixel_mask_iff h.inside px py
    have honce : once = _ := execute_plain h
    have htwice : twice = _ := execute_twice h
    refine ⟨?_, ?_, ?_⟩
    · rw [htwice]
      exact congrArg (m.drawn m.display) (reg_setRegister_self m 15 _).symm
    · rw [honce, flag_drawn, Bitmap.overlaps_iff]
      simp only [hmask, and_comm]
    · rw [htwice, flag_drawn, Bitmap.overlaps_iff]
      refine exists_congr fun px => exists_congr fun py => ?_
      rw [← hmask, Bitmap.pixel_xor]
      cases (t.mask m).pixel px py <;> simp
  · intro m t u ht hu
    have hboth : ∀ s ∈ [t, u], s.Plain m := by simp [ht, hu]
    exact display_draws_perm (List.Perm.swap u t []) hboth

/-- The last two bytes of memory over a picture with one lit pixel: two bits fall on the top line,
the first of them on the lit pixel. -/
def drawsOverLit : Machine :=
  { create ⟨0, 0⟩ with
    memory := Memory.zeros.store 0xFFE [0xC0, 0x01]
    display := Bitmap.blank.light 0 0
    i := 0xFFE }

theorem draws_are_xor_overLit :
    Draw.Plain ⟨0, 1, 2⟩ drawsOverLit ∧
      (drawsOverLit.execute 0xD012).reg 15 = 1 ∧
      ((drawsOverLit.execute 0xD012).execute 0xD012).reg 15 = 1 ∧
      ((drawsOverLit.execute 0xD012).execute 0xD012).display = drawsOverLit.display := by
  have hplain : Draw.Plain ⟨0, 1, 2⟩ drawsOverLit := ⟨by decide, by decide, by decide⟩
  have hlit : Draw.FallsOn ⟨0, 1, 2⟩ drawsOverLit 0 0 :=
    ⟨0, by decide, 0, by decide, by decide +kernel, by decide, by decide⟩
  have hdark : Draw.FallsOn ⟨0, 1, 2⟩ drawsOverLit 1 0 :=
    ⟨0, by decide, 1, by decide, by decide +kernel, by decide, by decide⟩
  obtain ⟨hback, honce, htwice⟩ := draws_are_xor.2.1 drawsOverLit ⟨0, 1, 2⟩ hplain
  have hdisplay := congrArg Machine.display hback
  exact ⟨hplain, honce.2 ⟨0, 0, hlit, by decide +kernel⟩,
    htwice.2 ⟨1, 0, hdark, by decide +kernel⟩, hdisplay⟩

end Machine
end Chip8
