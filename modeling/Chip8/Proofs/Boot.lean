import Chip8.Proofs.Layout
import Chip8.Proofs.Tone

/-! A boot is all or nothing, and forgets what has happened before: what follows it depends on the
plan, the program and the flags that are still to be polled, and on nothing else. -/
namespace Chip8

/-- The flags that an input will answer, from the next poll on. -/
def Input.upcoming (i : Input) (j : Nat) : List Bool := i.script (i.polls + j)

theorem Input.upcoming_poll (i : Input) : i.poll.2.upcoming = fun j => i.upcoming (j + 1) := by
  funext j
  exact congrArg i.script (by simp only [poll]; omega)

/-- All that decides the way a session goes. -/
structure Course where
  plan : Plan
  machine : Machine
  frames : Nat
  toneOn : Bool
  upcoming : Option (Nat → List Bool)

/-- What moves a booted session on outside of a run. -/
def Operation.Moves : Operation → Prop
  | .cue _ | .tick => True
  | _ => False

namespace Session
variable {τ : Type} {s t : Session τ}

def course (s : Session τ) : Course :=
  ⟨s.plan, s.machine, s.frames, s.toneOn, s.input.map Input.upcoming⟩

/-! ### What is not on the course -/

theorem course_traceStep (s : Session τ) : s.traceStep.course = s.course := by
  simp only [traceStep]
  split <;> rfl

theorem course_setTone (on : Bool) (s : Session τ) :
    (s.setTone on).course = { s.course with toneOn := on } := by
  simp only [setTone]
  split
  · next h => rw [h]; rfl
  · split
    · rfl
    · split
      · next h => rw [h]; rfl
      · next h => rw [Bool.not_eq_true] at h; rw [h]; rfl

theorem course_logRegisters (s : Session τ) : s.logRegisters.course = s.course := by
  rw [logRegisters]
  split <;> rfl

theorem course_drawDisplay (s : Session τ) : s.drawDisplay.course = s.course := by
  rw [drawDisplay]
  split <;> rfl

/-! ### The course goes on by itself -/

theorem seen_setKeypad (h : s.course = t.course) (flags : List Bool) :
    (s.setKeypad flags).seen course = (t.setKeypad flags).seen course := by
  rw [setKeypad, setKeypad]
  cases Keypad.ofFlags? flags with
  | none => exact congrArg (·, some (Failure.keypadLength flags.length)) h
  | some k =>
    exact congrArg
      (fun c : Course => ({ c with machine := { c.machine with keypad := k } }, none)) h

theorem seen_pollInput (h : s.course = t.course) :
    s.pollInput.seen course = t.pollInput.seen course := by
  have hu : s.input.map Input.upcoming = t.input.map Input.upcoming := congrArg Course.upcoming h
  cases hs : s.input with
  | none =>
    rw [hs, Option.map_none, eq_comm, Option.map_eq_none_iff] at hu
    simp only [pollInput, hs, hu]
    exact congrArg (·, none) h
  | some i =>
    rw [hs, Option.map_some, eq_comm, Option.map_eq_some_iff] at hu
    obtain ⟨i', ht, hi⟩ := hu
    have hflags : i'.script i'.polls = i.script i.polls := congrFun hi 0
    have hnext : i.poll.2.upcoming = i'.poll.2.upcoming := by
      rw [Input.upcoming_poll, Input.upcoming_poll, hi]
    simp only [pollInput, hs, ht, Input.poll, hflags]
    refine seen_setKeypad ?_ _
    have hc := congrArg (fun c : Course => { c with upcoming := some i.poll.2.upcoming }) h
    exact hc.trans (congrArg (fun u => { t.course with upcoming := some u }) hnext)

theorem seen_resume (h : s.course = t.course) (answer : Except Failure Machine) :
    (s.resume answer).seen course = (t.resume answer).seen course := by
  cases answer with
  | error f => exact congrArg (·, some f) h
  | ok m =>
    have hm : ({ s with machine := m } : Session τ).course =
        ({ t with machine := m } : Session τ).course :=
      congrArg (fun c : Course => { c with machine := m }) h
    refine Outcome.seen_andThen (congrArg (·, m.failure?) hm) fun _ => ?_
    simp only [Outcome.seen, check, updateTone, course_setTone]
    exact congrArg (fun c : Course => ({ c with toneOn := decide (0 < m.soundTimer) }, none)) hm

theorem course_tickTimers (h : s.course = t.course) :
    s.tickTimers.course = t.tickTimers.course := by
  rw [tickTimers, tickTimers, updateTone, updateTone, course_setTone, course_setTone]
  exact congrArg (fun c : Course => { c with
    machine := c.machine.tickTimers
    toneOn := decide (c.machine.tickTimers.soundTimer > 0) }) h

theorem telling_course : Telling (course (τ := τ)) where
  plan h := congrArg Course.plan h
  pollInput h := seen_pollInput h
  step {s t} h := by
    have hm : s.machine = t.machine := congrArg Course.machine h
    have hs : s.traceStep.machine = s.machine := congrArg Course.machine s.course_traceStep
    have ht : t.traceStep.machine = t.machine := congrArg Course.machine t.course_traceStep
    rw [step, step, hs, ht, hm]
    exact seen_resume (by rw [course_traceStep, course_traceStep, h]) _
  burst {s t} h := by
    rw [burst, burst, show s.machine = t.machine from congrArg Course.machine h,
      show s.plan = t.plan from congrArg Course.plan h]
    exact seen_resume h _
  endFrame {s t} h := by
    rw [endFrame, endFrame, course_drawDisplay, course_logRegisters, course_drawDisplay,
      course_logRegisters]
    exact congrArg (fun c : Course => { c with frames := c.frames + 1 }) (course_tickTimers h)

theorem seen_perform {s t : Session Float} {op : Operation} (hop : op.Moves)
    (h : s.course = t.course) : (s.perform op).seen course = (t.perform op).seen course := by
  cases op with
  | cue c =>
    cases c with
    | keys flags => exact seen_setKeypad h flags
    | step => exact telling_course.step h
    | frame => exact telling_course.frame h
  | tick => exact congrArg (·, none) (course_tickTimers h)
  | boot | bootRom | reset | run => exact hop.elim

theorem course_performAll {s t : Session Float} {ops : List Operation}
    (hops : ∀ op ∈ ops, op.Moves) (h : s.course = t.course) :
    (s.performAll ops).course = (t.performAll ops).course := by
  induction ops generalizing s t with
  | nil => exact h
  | cons op ops ih =>
    obtain ⟨hop, hrest⟩ := List.forall_mem_cons.1 hops
    exact ih hrest (Outcome.session_of_seen (seen_perform hop h))

/-! ### Boots -/

theorem boot_of_gt {image : List UInt8} (h : 3584 < image.length) (s : Session τ) :
    s.boot image = { session := s, failure := some (.halt (.romTooLarge image.length)) } := by
  rw [boot, Machine.load_of_gt _ h]

/-- Of a session a boot keeps on the course nothing but its plan and the flags to come. -/
theorem course_boot {image : List UInt8} {m : Machine}
    (h : (Machine.create s.plan.seed).load image = .ok m) :
    ∃ b : Session τ, s.boot image = { session := b } ∧
      b.course = ⟨s.plan, m, 0, false, s.input.map Input.upcoming⟩ := by
  rw [boot, h]
  exact ⟨_, rfl, course_setTone false _⟩

theorem bootRom_of_error {files : Files} {path : Option String} {name : String} {e : Failure}
    (hname : (path.filter (· ≠ "") <|> s.plan.romPath) = some name)
    (he : files.read name = .error e) :
    s.bootRom files path = { session := s, failure := some e } := by
  simp only [bootRom, hname, he]

/-- Whatever has been asked of a session: an image that is too large is refused and changes
nothing, and so does a file that cannot be read. Any other image boots as it does in a new session
of the same plan, and what the two do then is the same as long as they poll the same flags. -/
theorem boot_forgets (plan : Plan) (hasRenderer hasAudio : Bool) (input : Option Input)
    (logger : Logger) (clock : Clock Float) (ops : List Operation) :
    let s := (create plan hasRenderer hasAudio input logger clock).performAll ops
    (∀ image : List UInt8, 3584 < image.length →
      s.boot image = { session := s, failure := some (.halt (.romTooLarge image.length)) }) ∧
    (∀ image : List UInt8, image.length ≤ 3584 →
      ∃ b, s.boot image = { session := b } ∧ b.frames = 0 ∧ b.toneOn = false ∧
        (∀ a : Fin 4096, b.machine.memory.get a = Memory.layout image a) ∧
        ∀ (hasRenderer' hasAudio' : Bool) (input' : Option Input) (logger' : Logger)
          (clock' : Clock Float), input'.map Input.upcoming = s.input.map Input.upcoming →
          ∃ f, (create plan hasRenderer' hasAudio' input' logger' clock').boot image =
              { session := f } ∧
            f.machine = b.machine ∧ f.frames = 0 ∧ f.toneOn = false ∧
            ∀ later : List Operation, (∀ op ∈ later, op.Moves) →
              (f.performAll later).machine = (b.performAll later).machine ∧
              (f.performAll later).frames = (b.performAll later).frames ∧
              (f.performAll later).toneOn = (b.performAll later).toneOn ∧
              ∀ op : Operation, op.Moves →
                ((f.performAll later).perform op).failure =
                  ((b.performAll later).perform op).failure) ∧
    ∀ (files : Files) (path : Option String) (name : String) (e : Failure),
      (path.filter (· ≠ "") <|> plan.romPath) = some name → files.read name = .error e →
      s.bootRom files path = { session := s, failure := some e } := by
  intro s
  have hp : s.plan = plan :=
    performAll_induction (P := fun t => t.plan = plan) (fun op t h => (plan_perform op t).trans h)
      ops _ rfl
  refine ⟨fun image hlen => boot_of_gt hlen s, ?_, ?_⟩
  · intro image hlen
    obtain ⟨m, hm⟩ := Machine.load_of_length (.create plan.seed) image hlen
    obtain ⟨b, hb, hcourse⟩ := course_boot (s := s) (by rwa [hp])
    rw [hp] at hcourse
    refine ⟨b, hb, congrArg Course.frames hcourse, congrArg Course.toneOn hcourse, fun a => ?_, ?_⟩
    · rw [show b.machine = m from congrArg Course.machine hcourse]
      exact Machine.memory_of_load hm a
    · intro hasRenderer' hasAudio' input' logger' clock' hinput
      obtain ⟨f, hf, hfresh⟩ := course_boot
        (s := create plan hasRenderer' hasAudio' input' logger' clock') hm
      have hsame : f.course = b.course := by
        rw [hfresh, hcourse, ← hinput]
        rfl
      refine ⟨f, hf, congrArg Course.machine hsame, congrArg Course.frames hfresh,
        congrArg Course.toneOn hfresh, fun later hlater => ?_⟩
      have hl := course_performAll hlater hsame
      exact ⟨congrArg Course.machine hl, congrArg Course.frames hl, congrArg Course.toneOn hl,
        fun op hop => Outcome.failure_of_seen (seen_perform hop hl)⟩
  · intro files path name e hname he
    exact bootRom_of_error (by rwa [hp]) he

/-- A new session with two ticks a frame. -/
def twoTicks : Session Float :=
  create ⟨none, 2, 60, ⟨0, 0⟩, false, []⟩ false true none
    (Logger.create "" .info false false ⟨0, []⟩) ⟨0, []⟩

/-- It has a tone on and the keys set when it is booted again. -/
theorem boot_forgets_twoTicks :
    let s := twoTicks.performAll
      [.boot [0x60, 0x03, 0xF0, 0x18], .cue .frame, .cue (.keys (List.replicate 16 true))]
    s.boot (List.replicate 3585 0) =
      { session := s, failure := some (.halt (.romTooLarge 3585)) } ∧
    s.bootRom [("a", .directory)] (some "a") =
      { session := s, failure := some (.isDirectory "a") } ∧
    ∃ b f, s.boot [0xF0, 0x0A] = { session := b } ∧
      twoTicks.boot [0xF0, 0x0A] = { session := f } ∧
      (f.performAll [.tick, .cue .frame]).machine =
        (b.performAll [.tick, .cue .frame]).machine := by
  intro s
  obtain ⟨hlarge, hboot, hrom⟩ := boot_forgets ⟨none, 2, 60, ⟨0, 0⟩, false, []⟩ false true none
    (Logger.create "" .info false false ⟨0, []⟩) ⟨0, []⟩
    [.boot [0x60, 0x03, 0xF0, 0x18], .cue .frame, .cue (.keys (List.replicate 16 true))]
  refine ⟨?_, hrom _ (some "a") "a" _ rfl rfl, ?_⟩
  · have hlen : (List.replicate 3585 (0 : UInt8)).length = 3585 := List.length_replicate
    have h := hlarge (List.replicate 3585 0) (by rw [hlen]; decide)
    rwa [hlen] at h
  · obtain ⟨b, hb, -, -, -, hsame⟩ := hboot [0xF0, 0x0A] (by decide)
    have hinput : s.input = none := Option.isNone_iff_eq_none.1 (by decide +kernel)
    obtain ⟨f, hf, -, -, -, hlater⟩ := hsame false true none
      (Logger.create "" .info false false ⟨0, []⟩) ⟨0, []⟩ (congrArg _ hinput.symm)
    have hmoves : ∀ op ∈ [Operation.tick, .cue .frame], op.Moves := by simp [Operation.Moves]
    exact ⟨b, f, hb, hf, (hlater _ hmoves).1⟩

end Session
end Chip8
