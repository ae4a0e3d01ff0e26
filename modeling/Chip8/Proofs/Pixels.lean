import Chip8.Display

/-! Pictures as sets of lit pixels: what each operation does at one position. -/
namespace Chip8.Bitmap
variable {w h : Nat} {a b : Bitmap w h}

/-- Turns one pixel over. -/
def toggle (d : Bitmap w h) (x : Fin w) (y : Fin h) : Bitmap w h :=
  d.set y (d[y] ^^^ BitVec.twoPow w (w - 1 - x))

theorem pixel_eq (d : Bitmap w h) (x : Fin w) (y : Fin h) : d.pixel x y = d[y.val].getMsbD x := by
  have hx : w - 1 - x.val < w := by omega
  change d[y.val].getMsb x = _
  simp [BitVec.getMsb, BitVec.getMsbD, BitVec.getLsbD_eq_getElem hx]

theorem ext_pixel (hp : ∀ x y, a.pixel x y = b.pixel x y) : a = b := by
  apply Vector.ext
  intro y hy
  apply BitVec.eq_of_getMsbD_eq
  intro x hx
  have hxy := hp ⟨x, hx⟩ ⟨y, hy⟩
  rwa [pixel_eq, pixel_eq] at hxy

@[simp] theorem pixel_xor (a b : Bitmap w h) (x : Fin w) (y : Fin h) :
    (a.xor b).pixel x y = (a.pixel x y ^^ b.pixel x y) := by
  simp [pixel_eq, xor]

theorem pixel_toggle (d : Bitmap w h) (x x' : Fin w) (y y' : Fin h) :
    (d.toggle x y).pixel x' y' = (d.pixel x' y' ^^ decide (x = x' ∧ y = y')) := by
  simp only [pixel_eq, toggle]
  by_cases hy : y = y'
  · subst hy
    have hw : w - 1 - x.val < w := by omega
    have hx : x'.val = w - (w - 1 - x.val) - 1 ↔ x = x' := by
      rw [Fin.ext_iff]
      omega
    simp [BitVec.getMsbD_twoPow, hw, hx]
  · have hne : y.val ≠ y'.val := fun he => hy (Fin.ext he)
    rw [Vector.getElem_set_ne y.isLt y'.isLt hne]
    simp [hy]

theorem and_eq_zero_iff {u v : BitVec w} :
    u &&& v = 0 ↔ ∀ x : Fin w, (u.getMsbD x && v.getMsbD x) = false := by
  constructor
  · intro he x
    have hx := congrArg (·.getMsbD x) he
    simpa using hx
  · intro hn
    apply BitVec.eq_of_getMsbD_eq
    intro x hx
    simpa using hn ⟨x, hx⟩

theorem overlaps_iff :
    a.overlaps b = true ↔ ∃ x y, a.pixel x y = true ∧ b.pixel x y = true := by
  simp only [overlaps, Vector.any_eq_true, Vector.getElem_zipWith, bne_iff_ne, ne_eq,
    and_eq_zero_iff, Classical.not_forall, Bool.not_eq_false, Bool.and_eq_true, pixel_eq]
  constructor
  · rintro ⟨y, hy, x, hx⟩
    exact ⟨x, ⟨y, hy⟩, hx⟩
  · rintro ⟨x, y, hx⟩
    exact ⟨y, y.isLt, x, hx⟩

end Chip8.Bitmap
