import Chip8.Host.Window
import Chip8.Proofs.Pixels
import Mathlib.Data.List.FinRange

/-! What people see of a display, cell by cell: the lines of its text, the rows of its image at any
scale and the columns of its window are tables of one function, the light of a pixel. -/
namespace Chip8
variable {α β : Type} {w h : Nat}

/-- The entry at a row and a column. -/
def cell? (rows : List (List α)) (r c : Nat) : Option α := rows[r]?.bind (·[c]?)

/-- The values of a function, row by row. -/
def table (m n : Nat) (f : Nat → Nat → α) : List (List α) :=
  (List.range m).map fun r => (List.range n).map (f r)

section Table
variable {m n : Nat} {f : Nat → Nat → α}

@[simp] theorem length_table : (table m n f).length = m := by simp [table]

theorem length_of_mem_table {row : List α} (hrow : row ∈ table m n f) : row.length = n := by
  obtain ⟨r, -, rfl⟩ := List.mem_map.1 hrow
  simp

theorem cell?_table (r c : Nat) :
    cell? (table m n f) r c = if r < m ∧ c < n then some (f r c) else none := by
  by_cases hr : r < m <;> by_cases hc : c < n <;> simp [cell?, table, hr, hc]

theorem map_map_table (g : α → β) :
    (table m n f).map (·.map g) = table m n fun r c => g (f r c) := by
  simp [table, Function.comp_def]

theorem table_succ :
    table (m + 1) n f = (List.range n).map (f 0) :: table m n fun r => f (r + 1) := by
  simp [table, List.range_succ_eq_map, Function.comp_def]

end Table

/-- Rows that show every pixel of a picture as a block with `side` entries along each edge. -/
structure Shows (rows : List (List α)) (d : Bitmap w h) (side : Nat) (on off : α) : Prop where
  length_eq : rows.length = h * side
  length_row : ∀ row ∈ rows, row.length = w * side
  cell_eq : ∀ (x : Fin w) (y : Fin h) r c, c / side = x → r / side = y →
    cell? rows r c = some (if d.pixel x y then on else off)

namespace Image

/-- Entry `i` of a stretched list is entry `i / n` of the list. -/
theorem stretch_range {n : Nat} (hn : 0 < n) (m : Nat) (f : Nat → α) :
    stretch n ((List.range m).map f) = (List.range (m * n)).map fun i => f (i / n) := by
  -- from the end: the last entry makes the last block, and the blocks before it keep their places
  induction m with
  | zero => simp [stretch]
  | succ m ih =>
    have block : List.replicate n (f m) = (List.range n).map fun i => f ((m * n + i) / n) := by
      refine List.ext_getElem (by simp) fun i hi _ => ?_
      have hi : i < n := by simpa using hi
      have : (m * n + i) / n = m := by
        rw [Nat.mul_comm, Nat.mul_add_div hn, Nat.div_eq_of_lt hi, Nat.add_zero]
      simp [this]
    have split : stretch n ((List.range (m + 1)).map f) =
        stretch n ((List.range m).map f) ++ List.replicate n (f m) := by
      simp [stretch, List.range_succ]
    rw [split, ih, block, Nat.succ_mul, List.range_add, List.map_append, List.map_map]
    rfl

theorem blockSide_of_pos {scale : Int} (hs : 1 ≤ scale) : blockSide scale = scale.toNat := by
  rw [blockSide]
  split <;> omega

theorem magnify_table {scale : Int} (hs : 1 ≤ scale) (f : Nat → Nat → Color) :
    magnify scale (table h w f) = table (h * scale.toNat) (w * scale.toNat) fun r c =>
      f (r / scale.toNat) (c / scale.toNat) := by
  have hpos : 0 < scale.toNat := by omega
  simp only [magnify, blockSide_of_pos hs, table, List.map_map, Function.comp_def,
    stretch_range hpos]

theorem transpose_table (f : Nat → Nat → Color) :
    transpose w (table h w f) = table w h fun c r => f r c := by
  induction h generalizing f with
  | zero => simp [transpose, table, List.map_const']
  | succ h ih =>
    have rest := ih fun r => f (r + 1)
    rw [transpose] at rest
    rw [table_succ, transpose, List.foldr_cons, rest]
    simp [table, List.range_succ_eq_map, Function.comp_def, List.zipWith_map, List.zipWith_self]

end Image

namespace Bitmap

/-- The light at any position; outside of the picture it is dark. -/
def lit (d : Bitmap w h) (x y : Nat) : Bool :=
  if inside : x < w ∧ y < h then d.pixel ⟨x, inside.1⟩ ⟨y, inside.2⟩ else false

@[simp] theorem lit_val (d : Bitmap w h) (x : Fin w) (y : Fin h) : d.lit x y = d.pixel x y := by
  simp [lit]

theorem lines_eq_table (d : Bitmap w h) : d.lines = table h w fun y x => d.lit x y := by
  have positions (n : Nat) : List.range n = (List.finRange n).map Fin.val :=
    List.map_coe_finRange_eq_range.symm
  rw [lines, table, positions h, positions w, List.map_map]
  refine List.map_congr_left fun y _ => ?_
  rw [Function.comp_apply, List.map_map, line]
  exact List.map_congr_left fun x _ => (d.lit_val x y).symm

/-- A line of one-character marks, as characters. -/
theorem toList_join_marks (on off : Char) (l : List Bool) :
    (String.join (l.map fun lit =>
      if lit then String.singleton on else String.singleton off)).toList =
        l.map fun lit => if lit then on else off := by
  rw [String.toList_join, List.flatMap_map, List.map_eq_flatMap]
  refine List.flatMap_congr fun lit _ => ?_
  cases lit <;> simp

/-- No mark is a line break, so the breaks are where the lines end. -/
theorem splitOn_toText {on off : Char} (hon : on ≠ '\n') (hoff : off ≠ '\n') (hh : 1 ≤ h)
    (d : Bitmap w h) :
    (d.toText (String.singleton on) (String.singleton off)).toList.splitOn '\n' =
      table h w fun y x => if d.lit x y then on else off := by
  have marks : (d.toText (String.singleton on) (String.singleton off)).toList =
      ['\n'].intercalate (table h w fun y x => if d.lit x y then on else off) := by
    rw [toText, String.toList_intercalate, List.map_map,
      ← map_map_table (fun lit : Bool => if lit then on else off), ← d.lines_eq_table]
    congr 1
    exact List.map_congr_left fun l _ => toList_join_marks on off l
  rw [marks, List.splitOn_intercalate]
  · intro l hl
    obtain ⟨y, -, rfl⟩ := List.mem_map.1 hl
    simp only [List.mem_map, not_exists, not_and]
    intro x _
    split
    · exact hon
    · exact hoff
  · rw [← List.length_pos_iff, length_table]
    omega

end Bitmap

namespace Shows
variable {rows : List (List α)} {d d' : Bitmap w h} {side : Nat} {on off : α}

theorem of_table (hside : 0 < side) :
    Shows (table (h * side) (w * side) fun r c => if d.lit (c / side) (r / side) then on else off)
      d side on off where
  length_eq := length_table
  length_row _ hrow := length_of_mem_table hrow
  cell_eq x y r c hx hy := by
    have hr : r < h * side := (Nat.div_lt_iff_lt_mul hside).1 (hy ▸ y.isLt)
    have hc : c < w * side := (Nat.div_lt_iff_lt_mul hside).1 (hx ▸ x.isLt)
    rw [cell?_table, if_pos ⟨hr, hc⟩, hx, hy, Bitmap.lit_val]

theorem on_iff (hd : Shows rows d side on off) (hne : on ≠ off) {x : Fin w} {y : Fin h} {r c : Nat}
    (hx : c / side = x) (hy : r / side = y) : cell? rows r c = some on ↔ d.pixel x y = true := by
  rw [hd.cell_eq x y r c hx hy]
  cases d.pixel x y <;> simp [hne.symm]

/-- The corner of each block tells the pixel, so no two pictures are shown alike. -/
theorem unique (hd : Shows rows d side on off) (hd' : Shows rows d' side on off) (hside : 0 < side)
    (hne : on ≠ off) : d' = d := by
  apply Bitmap.ext_pixel
  intro x y
  have hx : x * side / side = x := Nat.mul_div_cancel _ hside
  have hy : y * side / side = y := Nat.mul_div_cancel _ hside
  rw [Bool.eq_iff_iff]
  exact (hd'.on_iff hne hx hy).symm.trans (hd.on_iff hne hx hy)

end Shows

theorem Bitmap.shows_toText {on off : Char} (hon : on ≠ '\n') (hoff : off ≠ '\n') (hh : 1 ≤ h)
    (d : Bitmap w h) :
    Shows ((d.toText (String.singleton on) (String.singleton off)).toList.splitOn '\n')
      d 1 on off := by
  rw [splitOn_toText hon hoff hh]
  simpa using (Shows.of_table one_pos : Shows _ d 1 on off)

namespace Image

theorem render_eq_table {scale : Int} (hs : 1 ≤ scale) (s : Scheme) (d : Bitmap w h) :
    render scale s d = table (h * scale.toNat) (w * scale.toNat) fun r c =>
      if d.lit (c / scale.toNat) (r / scale.toNat) then s.on else s.off := by
  rw [render, ofBitmap, d.lines_eq_table, map_map_table, magnify_table hs]

variable {room : Room} {scale : Int} {s : Scheme} {d : Bitmap w h} {image : Image}

theorem render?_eq_ok :
    render? room scale s d = .ok image ↔
      room w h scale = .ok () ∧ render scale s d = image := by
  rw [render?]
  cases room w h scale <;> simp [pure, Except.pure, bind, Except.bind]

theorem shows_render (hs : 1 ≤ scale) (s : Scheme) (d : Bitmap w h) :
    Shows (render scale s d) d scale.toNat s.on s.off := by
  rw [render_eq_table hs]
  exact .of_table (by omega)

/-- Every `scale`-th pixel of every `scale`-th row is the image without magnification. -/
theorem cell?_render_one (hs : 1 ≤ scale) (r c : Nat) :
    cell? (render 1 s d) r c = cell? (render scale s d) (r * scale.toNat) (c * scale.toNat) := by
  have hpos : 0 < scale.toNat := by omega
  rw [render_eq_table le_rfl, render_eq_table hs, cell?_table, cell?_table]
  simp [Nat.mul_lt_mul_right hpos, Nat.mul_div_cancel _ hpos]

theorem cell?_transpose_render (hs : 1 ≤ scale) (r c : Nat) :
    cell? ((render scale s d).transpose (w * scale.toNat)) c r = cell? (render scale s d) r c := by
  rw [render_eq_table hs, transpose_table, cell?_table, cell?_table]
  simp only [and_comm]

theorem length_transpose_render (hs : 1 ≤ scale) :
    let columns := (render scale s d).transpose (w * scale.toNat)
    columns.length = w * scale.toNat ∧ ∀ column ∈ columns, column.length = h * scale.toNat := by
  simp only [render_eq_table hs, transpose_table]
  exact ⟨length_table, fun _ => length_of_mem_table⟩

end Image

/-- A window with the sides that its scale asks for takes every picture that there is room for. -/
theorem Window.draw_eq_ok {room : Room} {win : Window} {e : Display} (hs : 1 ≤ win.scale)
    (hwidth : win.width = 64 * win.scale) (hheight : win.height = 32 * win.scale)
    (hroom : room 64 32 win.scale = .ok ()) :
    win.draw room e =
      .ok ((Image.render win.scale win.scheme e).transpose (64 * win.scale.toNat)) := by
  have side : (win.scale.toNat : Int) = win.scale := Int.toNat_of_nonneg (by omega)
  have fits : win.width = 64 * win.scale.toNat ∧ win.height = 32 * win.scale.toNat := by
    rw [side]
    exact ⟨hwidth, hheight⟩
  have width : win.width.toNat = 64 * win.scale.toNat := by omega
  simp only [draw, takesPictures, hroom, Image.blockSide_of_pos hs, surface, width, bind,
    Except.bind]
  rw [if_pos fits]
  rfl

/-- Text, image and window as one picture. An image is made whenever the host has room for it. -/
theorem text_image_window_agree (hh : 1 ≤ h) {scale : Int} (hs : 1 ≤ scale) {s : Scheme}
    (hcolors : s.on ≠ s.off) {on off : Char} (hmarks : on ≠ off) (hon : on ≠ '\n')
    (hoff : off ≠ '\n') (room : Room) (d : Bitmap w h) :
    let side := scale.toNat
    let text (d : Bitmap w h) := d.toText (String.singleton on) (String.singleton off)
    let lines := (text d).toList.splitOn '\n'
    Shows lines d 1 on off ∧ (∀ d', text d' = text d → d' = d) ∧
    ((∃ image, Image.render? room scale s d = .ok image) ↔ room w h scale = .ok ()) ∧
    ∀ image, Image.render? room scale s d = .ok image →
      Shows image d side s.on s.off ∧
      (∀ (x : Fin w) (y : Fin h) r c, c / side = x → r / side = y →
        (cell? image r c = some s.on ↔ d.pixel x y = true) ∧
        (d.pixel x y = true ↔ cell? lines (r / side) (c / side) = some on)) ∧
      (∀ d', Image.render? room scale s d' = .ok image → d' = d) ∧
      (room w h 1 = .ok () → ∃ small, Image.render? room 1 s d = .ok small ∧
        ∀ r c, cell? small r c = cell? image (r * side) (c * side)) ∧
      (let columns := image.transpose (w * side)
       columns.length = w * side ∧ (∀ column ∈ columns, column.length = h * side) ∧
        ∀ (x : Fin w) (y : Fin h) px py, px / side = x → py / side = y →
          cell? columns px py = some (if d.pixel x y then s.on else s.off)) ∧
      ∀ (win : Window) (e : Display), win.scale = scale → win.scheme = s →
        win.width = 64 * scale → win.height = 32 * scale → room 64 32 scale = .ok () →
        ∃ columns, win.draw room e = .ok columns ∧
          ∀ (x : Fin 64) (y : Fin 32) px py, px / side = x → py / side = y →
            cell? columns px py = some (if e.pixel x y then s.on else s.off) := by
  have hpos : 0 < scale.toNat := by omega
  have shown (d : Bitmap w h) := d.shows_toText hon hoff hh
  refine ⟨shown d, fun d' same => ?_, ?_, fun image himage => ?_⟩
  · have again := shown d'
    rw [show d'.toText _ _ = d.toText _ _ from same] at again
    exact (shown d).unique again one_pos hmarks
  · simp only [Image.render?_eq_ok, exists_and_left, exists_eq', and_true]
  · obtain ⟨-, rfl⟩ := Image.render?_eq_ok.1 himage
    have painted := Image.shows_render hs s d
    refine ⟨painted, fun x y r c hx hy => ⟨painted.on_iff hcolors hx hy, ?_⟩, fun d' hd' => ?_,
      fun hone => ⟨_, Image.render?_eq_ok.2 ⟨hone, rfl⟩, Image.cell?_render_one hs⟩,
      ⟨(Image.length_transpose_render hs).1, (Image.length_transpose_render hs).2,
        fun x y px py hx hy => ?_⟩, ?_⟩
    · exact ((shown d).on_iff hmarks (by rw [Nat.div_one, hx]) (by rw [Nat.div_one, hy])).symm
    · obtain ⟨-, same⟩ := Image.render?_eq_ok.1 hd'
      have again := Image.shows_render hs s d'
      rw [same] at again
      exact painted.unique again hpos hcolors
    · rw [Image.cell?_transpose_render hs, painted.cell_eq x y py px hx hy]
    · rintro win e rfl rfl hwidth hheight hroom
      refine ⟨_, Window.draw_eq_ok hs hwidth hheight hroom, fun x y px py hx hy => ?_⟩
      rw [Image.cell?_transpose_render hs, (Image.shows_render hs _ e).cell_eq x y py px hx hy]

/-- One lit pixel and one dark one, three times as large. -/
theorem text_image_window_agree_half :
    ∃ image, Image.render? .boundless 3 ⟨.white, .black⟩ (#v[2#2] : Bitmap 2 1) = .ok image ∧
      cell? image 2 2 = some .white ∧ cell? image 2 3 = some .black ∧
      cell? ((Bitmap.toText (#v[2#2] : Bitmap 2 1) "#" ".").toList.splitOn '\n') 0 0 = some '#' := by
  obtain ⟨lines, -, room, pictured⟩ := @text_image_window_agree 2 1 (by decide) 3
    (by decide) ⟨.white, .black⟩ (by decide) '#' '.' (by decide) (by decide) (by decide)
    .boundless #v[2#2]
  obtain ⟨image, himage⟩ := room.2 rfl
  have painted := (pictured image himage).1
  refine ⟨image, himage, ?_, ?_, ?_⟩
  · exact painted.cell_eq 0 0 2 2 rfl rfl
  · exact painted.cell_eq 1 0 2 3 rfl rfl
  · exact lines.cell_eq 0 0 0 0 rfl rfl

/-- No image is as large as a scale of 64 bits asks, however much memory there is. -/
theorem no_image_of_huge_scale :
    ¬∃ image, Image.render? .boundless 0x8000000000000000 ⟨.white, .black⟩ (.blank : Bitmap 1 1) =
      .ok image := by
  rintro ⟨image, h⟩
  cases h

end Chip8
