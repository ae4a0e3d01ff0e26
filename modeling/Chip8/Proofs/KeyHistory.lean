import Chip8.Host.Keyboard
import Mathlib.Data.List.Nodup

/-! The keyboard with its default map as a record of the events so far: a flag of the pad tells
what happened last to the one host key behind it, however the events were spread over polls. -/
namespace Chip8

/-- The host key that an event presses or releases. -/
def KeyEvent.key? : KeyEvent → Option Key
  | .down key => some key
  | .up key => some key
  | .quit | .other => none

/-- The last press or release of a host key. -/
def KeyEvent.last? (host : Key) (past : List KeyEvent) : Option KeyEvent :=
  (past.filter fun e => e.key? = some host).getLast?

theorem KeyEvent.last?_concat (host : Key) (past : List KeyEvent) (e : KeyEvent) :
    last? host (past ++ [e]) = if e.key? = some host then some e else last? host past := by
  by_cases h : e.key? = some host <;> simp [last?, List.filter_append, h]

/-- Without a repeated key it does not count from which end a table is read. -/
theorem lookup_reverse_eq_some_iff {α β : Type} [BEq α] [LawfulBEq α] {table : List (α × β)}
    (h : (table.map Prod.fst).Nodup) {a : α} {b : β} :
    table.reverse.lookup a = some b ↔ (a, b) ∈ table := by
  rw [List.lookup_eq_some_iff]
  constructor
  · rintro ⟨before, after, split, -⟩
    rw [← List.mem_reverse, split]
    simp
  · intro mem
    obtain ⟨before, after, split⟩ := List.append_of_mem (List.mem_reverse.2 mem)
    refine ⟨before, after, split, fun entry he => ?_⟩
    have nodup : ((before ++ (a, b) :: after).map Prod.fst).Nodup := by
      rw [← split, List.map_reverse]
      exact List.nodup_reverse.2 h
    rw [List.map_append, List.nodup_append] at nodup
    have := nodup.2.2 entry.1 (List.mem_map_of_mem he) a (by simp)
    simpa using Ne.symm this

theorem Keypad.get_setIfInBounds (keys : Keypad) (i j : Fin 16) (pressed : Bool) :
    (keys.setIfInBounds i.val pressed).get j = if i = j then pressed else keys.get j := by
  change (keys.setIfInBounds i.val pressed)[j.val] = if i = j then pressed else keys[j.val]
  rw [Vector.getElem_setIfInBounds]
  simp only [Fin.ext_iff]

theorem Keypad.get_released (i : Fin 16) : released.get i = false := by
  revert i
  decide

section DefaultMap

theorem nodup_fst_defaultKeyMap : (defaultKeyMap.map Prod.fst).Nodup := by decide

theorem nodup_snd_defaultKeyMap : (defaultKeyMap.map Prod.snd).Nodup := by decide

theorem exists_mem_defaultKeyMap (i : Fin 16) : ∃ host, (host, (i : Int)) ∈ defaultKeyMap := by
  have covered : ∀ i : Fin 16, (i : Int) ∈ defaultKeyMap.map Prod.snd := by decide
  obtain ⟨⟨host, target⟩, mem, rfl⟩ := List.mem_map.1 (covered i)
  exact ⟨host, mem⟩

theorem exists_target {host : Key} {target : Int} (h : (host, target) ∈ defaultKeyMap) :
    ∃ i : Fin 16, target = i := by
  have bounded : ∀ entry ∈ defaultKeyMap, ∃ i : Fin 16, entry.2 = i := by decide
  exact bounded _ h

/-- A flag has one host key. -/
theorem host_unique {host host' : Key} {target : Int} (h : (host, target) ∈ defaultKeyMap)
    (h' : (host', target) ∈ defaultKeyMap) : host' = host :=
  congrArg Prod.fst (List.inj_on_of_nodup_map nodup_snd_defaultKeyMap h' h rfl)

/-- A host key has one flag. -/
theorem target_unique {host : Key} {target target' : Int} (h : (host, target) ∈ defaultKeyMap)
    (h' : (host, target') ∈ defaultKeyMap) : target' = target :=
  congrArg Prod.snd (List.inj_on_of_nodup_map nodup_fst_defaultKeyMap h' h rfl)

theorem escape_not_mapped (target : Int) : ("ESCAPE", target) ∉ defaultKeyMap := by
  have unmapped : ∀ entry ∈ defaultKeyMap, entry.1 ≠ "ESCAPE" := by decide
  exact fun h => unmapped _ h rfl

end DefaultMap

namespace Keyboard

variable {k next : Keyboard} {past : List KeyEvent}

theorem indexOf_number (i : Fin 16) : indexOf (.number i) = .ok i := by
  have range : (0 : Int) ≤ i ∧ (i : Int) < 16 := by omega
  simp [indexOf, Setting.quantity?, range]

theorem target?_eq_some_iff (hmap : k.map = ({} : Keyboard).map) {key : Key} {t : Setting} :
    k.target? key = some t ↔ ∃ target, (key, target) ∈ defaultKeyMap ∧ t = .number target := by
  rw [target?, hmap, lookup_reverse_eq_some_iff]
  · simp [eq_comm]
  · rw [List.map_map]
    exact nodup_fst_defaultKeyMap

theorem setKey_of_mem (hmap : k.map = ({} : Keyboard).map) {host : Key} {i : Fin 16}
    (h : (host, (i : Int)) ∈ defaultKeyMap) (pressed : Bool) :
    k.setKey host pressed = .ok { k with keys := k.keys.setIfInBounds i.val pressed } := by
  have found : k.target? host = some (.number i) := (target?_eq_some_iff hmap).2 ⟨i, h, rfl⟩
  rw [setKey, found]
  simp only [indexOf_number]
  rfl

theorem setKey_of_unmapped (hmap : k.map = ({} : Keyboard).map) {key : Key}
    (h : ∀ target, (key, target) ∉ defaultKeyMap) (pressed : Bool) :
    k.setKey key pressed = .ok k := by
  have missing : k.target? key = none := by
    rw [Option.eq_none_iff_forall_not_mem]
    intro t ht
    obtain ⟨target, mem, -⟩ := (target?_eq_some_iff hmap).1 ht
    exact h target mem
  rw [setKey, missing]

/-- What a keyboard knows of the events so far. -/
structure Reflects (past : List KeyEvent) (k : Keyboard) : Prop where
  map_eq : k.map = ({} : Keyboard).map
  flag_iff : ∀ host (i : Fin 16), (host, (i : Int)) ∈ defaultKeyMap →
    (k.keys.get i = true ↔ KeyEvent.last? host past = some (.down host))
  quit_iff : k.quitRequested = true ↔ .quit ∈ past ∨ .down "ESCAPE" ∈ past

theorem reflects_nil : Reflects [] {} where
  map_eq := rfl
  flag_iff host i _ := by simp [Keypad.get_released, KeyEvent.last?]
  quit_iff := by simp

/-- An event of no mapped key leaves the flags alone. -/
theorem handle_of_unmapped (hmap : k.map = ({} : Keyboard).map) {e : KeyEvent}
    (h : ∀ key, e.key? = some key → ∀ target, (key, target) ∉ defaultKeyMap) :
    k.handle e = .ok { k with
      quitRequested := k.quitRequested || (e = .quit ∨ e = .down "ESCAPE") } := by
  cases e with
  | down key =>
    by_cases escape : key = "ESCAPE"
    · simp [handle, escape]
    · simp [handle, escape, setKey_of_unmapped hmap (h key rfl)]
  | up key => simp [handle, setKey_of_unmapped hmap (h key rfl)]
  | quit => simp [handle]
  | other => simp [handle]

/-- An event of a mapped key sets the flag of that key. -/
theorem handle_of_mem (hmap : k.map = ({} : Keyboard).map) {e : KeyEvent} {host : Key} {i : Fin 16}
    (he : e.key? = some host) (h : (host, (i : Int)) ∈ defaultKeyMap) :
    k.handle e = .ok { k with keys := k.keys.setIfInBounds i.val (e = .down host) } := by
  have notEscape : host ≠ "ESCAPE" := by
    rintro rfl
    exact escape_not_mapped _ h
  cases e with
  | down key =>
    obtain rfl : key = host := Option.some.inj he
    simp [handle, notEscape, setKey_of_mem hmap h]
  | up key =>
    obtain rfl : key = host := Option.some.inj he
    simp [handle, setKey_of_mem hmap h]
  | quit => cases he
  | other => cases he

theorem Reflects.handle_of_unmapped (hk : Reflects past k) {e : KeyEvent}
    (h : ∀ key, e.key? = some key → ∀ target, (key, target) ∉ defaultKeyMap) :
    ∃ next, k.handle e = .ok next ∧ Reflects (past ++ [e]) next := by
  refine ⟨_, Keyboard.handle_of_unmapped hk.map_eq h, hk.map_eq, fun host i mem => ?_, ?_⟩
  · have foreign : e.key? ≠ some host := fun he => h host he _ mem
    rw [KeyEvent.last?_concat, if_neg foreign]
    exact hk.flag_iff host i mem
  · simp only [Bool.or_eq_true, decide_eq_true_eq, hk.quit_iff, List.mem_append,
      List.mem_singleton]
    grind

theorem Reflects.handle_of_mem (hk : Reflects past k) {e : KeyEvent} {pressed : Key} {j : Fin 16}
    (he : e.key? = some pressed) (h : (pressed, (j : Int)) ∈ defaultKeyMap) :
    ∃ next, k.handle e = .ok next ∧ Reflects (past ++ [e]) next := by
  refine ⟨_, Keyboard.handle_of_mem hk.map_eq he h, hk.map_eq, fun host i mem => ?_, ?_⟩
  · rw [KeyEvent.last?_concat, he]
    by_cases same : host = pressed
    · subst same
      obtain rfl : i = j := Fin.ext (Int.ofNat.inj (target_unique h mem))
      simp [Keypad.get_setIfInBounds]
    · -- an event of another host key, which has a flag of its own
      have apart : j ≠ i := by
        rintro rfl
        exact same (host_unique h mem)
      simpa [Keypad.get_setIfInBounds, apart, Ne.symm same] using hk.flag_iff host i mem
  · have notQuit : e ≠ .quit ∧ e ≠ .down "ESCAPE" := by
      constructor <;> rintro rfl
      · cases he
      · obtain rfl : "ESCAPE" = pressed := Option.some.inj he
        exact escape_not_mapped _ h
    simp only [hk.quit_iff, List.mem_append, List.mem_singleton]
    grind

/-- One event more: none fails, and what the keyboard knows grows by it. -/
theorem Reflects.handle (hk : Reflects past k) (e : KeyEvent) :
    ∃ next, k.handle e = .ok next ∧ Reflects (past ++ [e]) next := by
  by_cases h : ∀ key, e.key? = some key → ∀ target, (key, target) ∉ defaultKeyMap
  · exact hk.handle_of_unmapped h
  · push Not at h
    obtain ⟨pressed, he, target, mem⟩ := h
    obtain ⟨j, rfl⟩ := exists_target mem
    exact hk.handle_of_mem he mem

/-- A poll: no event is discarded, and what the keyboard knows grows by all of them. -/
theorem Reflects.poll (hk : Reflects past k) (es : List KeyEvent) :
    (k.poll es).2 = none ∧ Reflects (past ++ es) (k.poll es).1 := by
  induction es generalizing past k with
  | nil =>
    rw [List.append_nil]
    exact ⟨rfl, hk⟩
  | cons e es ih =>
    obtain ⟨next, step, hnext⟩ := hk.handle e
    simpa [Keyboard.poll, step] using ih hnext

theorem reflects_afterBatches (batches : List (List KeyEvent)) (n : Nat) :
    Reflects (batches.take n).flatten (({} : Keyboard).afterBatches batches n) := by
  -- the fold carries the keyboard along, so the past that it reflects is general
  suffices ∀ (bs : List (List KeyEvent)) past k, Reflects past k →
      Reflects (past ++ bs.flatten) (bs.foldl (fun k es => (k.poll es).1) k) from
    this _ [] {} reflects_nil
  intro bs
  induction bs with
  | nil =>
    intro past k hk
    simpa using hk
  | cons es rest ih =>
    intro past k hk
    simpa using ih _ _ (hk.poll es).2

/-- The events so far say all that there is to know of a keyboard. -/
theorem Reflects.unique (h : Reflects past k) (h' : Reflects past next) : next = k := by
  have map_eq : next.map = k.map := h'.map_eq.trans h.map_eq.symm
  have keys_eq : next.keys = k.keys := by
    apply Vector.ext
    intro i hi
    obtain ⟨host, mem⟩ := exists_mem_defaultKeyMap ⟨i, hi⟩
    rw [Bool.eq_iff_iff]
    exact (h'.flag_iff host _ mem).trans (h.flag_iff host _ mem).symm
  have quit_eq : next.quitRequested = k.quitRequested := by
    rw [Bool.eq_iff_iff]
    exact h'.quit_iff.trans h.quit_iff.symm
  cases next
  cases k
  simp_all

/-- What the polls answer, the first one first. -/
def snapshots (k : Keyboard) (batches : List (List KeyEvent)) : List (List Bool) :=
  (List.range batches.length).map (k.toInput batches).script

theorem getLast?_snapshots {batches : List (List KeyEvent)} (h : batches ≠ []) :
    (k.snapshots batches).getLast? =
      some (k.afterBatches batches batches.length).keys.toList := by
  have polled : batches.length - 1 + 1 = batches.length := by
    have := List.length_pos_of_ne_nil h
    omega
  simp [snapshots, List.getLast?_range, h, toInput, polled]

theorem getElem?_snapshots {batches : List (List KeyEvent)} {n : Nat} {flags : List Bool}
    (h : (k.snapshots batches)[n]? = some flags) :
    flags = (k.afterBatches batches (n + 1)).keys.toList := by
  obtain ⟨hn, rfl⟩ := List.getElem?_eq_some_iff.1 h
  simp [snapshots, toInput]

/-- The keyboard as a function of the events so far, at every poll: one host key decides each flag,
no event fails, a request to quit stays, and where one poll ends and the next begins is lost. -/
theorem snapshots_reflect_events (batches : List (List KeyEvent)) :
    let snapshots := ({} : Keyboard).snapshots batches
    (snapshots.length = batches.length ∧
      ∀ (n : Nat) flags, snapshots[n]? = some flags →
        flags.length = 16 ∧ flags = (({} : Keyboard).afterBatches batches (n + 1)).keys.toList) ∧
    (∀ n,
      let k := ({} : Keyboard).afterBatches batches n
      let past := (batches.take n).flatten
      (∀ i : Fin 16, ∃ host, (∀ key, (key, (i : Int)) ∈ defaultKeyMap ↔ key = host) ∧
        (k.keys.get i = true ↔ KeyEvent.last? host past = some (.down host))) ∧
      (∀ e : KeyEvent, (∀ key, e.key? = some key → ∀ target, (key, target) ∉ defaultKeyMap) →
        ∃ next, k.handle e = .ok next ∧ next.keys = k.keys) ∧
      (k.quitRequested = true ↔ .quit ∈ past ∨ .down "ESCAPE" ∈ past) ∧
      ∀ es, (k.poll es).2 = none ∧
        (k.quitRequested = true → (k.poll es).1.quitRequested = true)) ∧
    ∀ batches' : List (List KeyEvent), batches'.flatten = batches.flatten →
      ({} : Keyboard).afterBatches batches' batches'.length =
        ({} : Keyboard).afterBatches batches batches.length ∧
      (batches ≠ [] → batches' ≠ [] →
        (({} : Keyboard).snapshots batches').getLast? = snapshots.getLast?) := by
  have known (n : Nat) := reflects_afterBatches batches n
  refine ⟨⟨by simp [snapshots], fun n flags h => ?_⟩, fun n => ⟨fun i => ?_, fun e unmapped => ?_,
    (known n).quit_iff, fun es => ?_⟩, fun batches' same => ?_⟩
  · obtain rfl := getElem?_snapshots h
    exact ⟨by simp, rfl⟩
  · obtain ⟨host, mem⟩ := exists_mem_defaultKeyMap i
    refine ⟨host, fun key => ⟨host_unique mem, ?_⟩, (known n).flag_iff _ _ mem⟩
    rintro rfl
    exact mem
  · exact ⟨_, handle_of_unmapped (known n).map_eq unmapped, rfl⟩
  · obtain ⟨sound, later⟩ := (known n).poll es
    refine ⟨sound, fun asked => later.quit_iff.2 ?_⟩
    have := (known n).quit_iff.1 asked
    grind
  · have last_eq : ({} : Keyboard).afterBatches batches' batches'.length =
        ({} : Keyboard).afterBatches batches batches.length := by
      have h := known batches.length
      have h' := reflects_afterBatches batches' batches'.length
      rw [List.take_length] at h h'
      exact h.unique (same ▸ h')
    refine ⟨last_eq, fun polled polled' => ?_⟩
    rw [getLast?_snapshots polled, getLast?_snapshots polled', last_eq]

end Keyboard

end Chip8
