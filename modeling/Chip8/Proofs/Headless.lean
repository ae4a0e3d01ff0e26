import Chip8.CommandLine.Program
import Chip8.Proofs.Boot
import Chip8.Proofs.Frames
import Chip8.Proofs.Unpolled

/-! A play without a window, from its command line to its last picture: how it ends, what it
complains of and what it shows. -/
namespace Chip8

namespace Report

/-- The line of an error that ends a play. -/
def complains (text : String) : Bool := opens "Halting (" text || opens "Could not read rom: " text

theorem heads_complains : HeadsIn ['H', 'C'] complains :=
  (headsIn_opens (c := 'H') rfl).or (headsIn_opens (c := 'C') rfl)

theorem complains_halt (h : Halt) : complains (halt h) = true := by
  rw [complains, halt, halting, String.append_assoc, String.append_assoc, opens_append,
    Bool.true_or]

theorem complains_unread (text : String) : complains ("Could not read rom: " ++ text) = true := by
  rw [complains, opens_append, Bool.or_true]

theorem complains_loaded (text : String) : complains ("Loaded " ++ text) = false :=
  heads_complains.not_of_head (head_append (c := 'L') rfl text) (by decide)

theorem complains_shutdown (frames : String) (t : Float) :
    complains (shutdown frames t) = false := by
  refine heads_complains.not_of_head (c := 'S') ?_ (by decide)
  delta shutdown
  simp only [String.append_assoc]
  exact head_append rfl _

theorem halt_fault (c : Cause) (pc : Int) :
    halt (.fault c none (some pc)) =
      "Halting (fatal): " ++ (c.wording ++ (" (pc=0x" ++ Hex.signed 3 pc ++ ")")) :=
  congrArg (· ++ _) (show "Halting (" ++ "fatal" ++ "): " = "Halting (fatal): " by decide)

theorem halt_romTooLarge (size : Int) :
    halt (.romTooLarge size) =
      "Halting (fatal, pre-execution): " ++ Halt.text (.romTooLarge size) :=
  congrArg (· ++ _) (show "Halting (" ++ "fatal, pre-execution" ++ "): " =
    "Halting (fatal, pre-execution): " by decide)

end Report

namespace Level

theorem rank_le_error {l : Level} : l.rank ≤ Level.error.rank ↔ l ≠ .critical := by
  cases l <;> decide

end Level

namespace Files
variable {files : Files} {path : String} {e : Failure}

/-- The failures of a file that cannot be read. -/
def refusals (path : String) : List Failure :=
  [.noSuchFile path, .isDirectory path, .notDirectory path, .nameTooLong path,
    .permissionDenied path]

theorem follow_error {parts : List String} {place : Option (List String)}
    (h : files.follow path place parts = .error e) : e ∈ refusals path := by
  fun_induction follow files path place parts with
  | case1 | case4 | case6 | case9 =>
    cases h
    simp [refusals]
  | case2 _ _ _ _ ih => exact ih h
  | case3 _ _ _ ih => exact ih h
  | case5 => cases h
  | case7 =>
    cases h
    split <;> simp [refusals]
  | case8 _ _ _ _ _ _ _ ih => exact ih h

theorem read_error (h : files.read path = .error e) (hz : e ≠ .zeroInText) :
    e ∈ refusals path := by
  revert h
  fun_cases read files path with
  | case1 => exact fun h => nomatch h
  | case4 => exact fun h => absurd (Except.error.inj h).symm hz
  | case2 | case3 | case5 | case6 =>
    rintro ⟨⟩
    simp [refusals]
  | case7 => exact follow_error

end Files

namespace Plan

/-- What a run of some frames needs: a period of the timers and, if a frame is due, ticks that can
be counted. -/
def Counts (p : Plan) (n : Int) : Prop :=
  (Double.ofNat? p.timerHz).isSome = true ∧
    (n ≤ 0 ∨ p.trace = true ∨ p.cyclesPerFrame < 0x80000000)

theorem romPath_of_text {c : Config} {p : Plan} {name : String} (h : ofConfig c = .ok p)
    (hc : c.romPath = .text name) : p.romPath = some name := by
  obtain ⟨cps, hz, scale, key, hq, hk, -⟩ := ofConfig_eq_ok h
  simp only [ofConfig, hq, hk, hc, bind, Except.bind] at h
  cases h
  rfl

end Plan

namespace Bitmap

/-- The lines of a picture as they are printed. -/
def rows {w h : Nat} (d : Bitmap w h) (on off : String) : List String :=
  d.lines.map fun l => String.join (l.map fun lit => if lit then on else off)

theorem length_rows {w h : Nat} (d : Bitmap w h) (on off : String) :
    (d.rows on off).length = h := by
  rw [rows, List.length_map, lines, List.length_map, List.length_finRange]

theorem newline_not_mem_rows {w h : Nat} (d : Bitmap w h) :
    ∀ row ∈ d.rows "#" ".", '\n' ∉ row.toList := by
  intro row hrow
  obtain ⟨l, -, rfl⟩ := List.mem_map.1 hrow
  rw [String.toList_join, List.mem_flatMap]
  rintro ⟨pixel, hpixel, hc⟩
  obtain ⟨lit, -, rfl⟩ := List.mem_map.1 hpixel
  cases lit <;> simp at hc

theorem intercalate_newline {ls : List String} (h : ls ≠ []) :
    "\n".intercalate ls ++ "\n" = String.join (ls.map (· ++ "\n")) := by
  induction ls with
  | nil => exact absurd rfl h
  | cons l ls ih =>
    cases ls with
    | nil => simp
    | cons l' ls =>
      rw [String.intercalate_cons_cons, String.append_assoc, ih (List.cons_ne_nil _ _)]
      simp [String.append_assoc]

end Bitmap

namespace Backstage

def complaints (b : Backstage) : List String := b.lines Report.complains

end Backstage

namespace Session
variable {τ : Type} {s : Session Float} {image : List UInt8} {n : Int}

def complaints (s : Session τ) : List String := s.backstage.complaints

theorem complaints_log {text : String} (h : Report.complains text = true) (s : Session τ) :
    (s.log .error text).complaints =
      s.complaints ++ if s.logger.threshold = .critical then [] else [text] := by
  rw [complaints, backstage_log, Backstage.complaints, Backstage.lines_say,
    List.filter_singleton, h]
  simp only [Level.rank_le_error, ne_eq, ite_not]
  rfl

/-- Of a run that is called for a number of frames only a halt is complained of. -/
theorem complaints_run (period : Float) (paced : Bool) (s : Session Float) :
    (s.run period (some n) paced).session.complaints = s.complaints ++
      match (s.run period (some n) paced).failure with
      | some (.halt h) => if s.logger.threshold = .critical then [] else [Report.halt h]
      | _ => [] := by
  obtain ⟨t, ht⟩ := lines_run Report.heads_complains (by simp) period n paced s
  refine ht.trans (congrArg (s.complaints ++ ·) ?_)
  cases (s.run period (some n) paced).failure with
  | none =>
    refine List.filter_eq_nil_iff.2 fun text hm => ?_
    simp only [notice] at hm
    split at hm
    · rw [List.mem_singleton.1 hm, Report.complains_shutdown]
      decide
    · cases hm
  | some f =>
    cases f with
    | halt h =>
      simp only [notice, Level.rank_le_error, ne_eq, ite_not]
      split
      · rfl
      · rw [List.filter_singleton, Report.complains_halt]
        rfl
    | _ => rfl

/-! ### Booting the file of the plan -/

theorem complaints_loaded (name : String) (s : Session τ) :
    (s.log .info ("Loaded " ++ name)).complaints = s.complaints := by
  rw [complaints, backstage_log]
  refine Backstage.lines_say_of_not (fun text ht => ?_) _ _
  rw [List.mem_singleton.1 ht]
  exact Report.complains_loaded name

section Boot
variable {files : Files} {name : String} (hname : s.plan.romPath = some name)
include hname

/-- Without a path the one of the plan counts. -/
theorem named_by_plan : ((none : Option String).filter (· ≠ "") <|> s.plan.romPath) = some name :=
  hname

variable (hread : files.read name = .ok image)
include hread

theorem bootRom_of_read : s.bootRom files none = (s.log .info ("Loaded " ++ name)).boot image := by
  simp only [bootRom, named_by_plan hname, hread]

theorem bootRom_of_load {m : Machine} (hm : (Machine.create s.plan.seed).load image = .ok m) :
    ∃ b, s.bootRom files none = { session := b } ∧
      b.course = ⟨s.plan, m, 0, false, s.input.map Input.upcoming⟩ ∧
      b.complaints = s.complaints ∧ b.logger.threshold = s.logger.threshold := by
  have hload : (Machine.create (s.log .info ("Loaded " ++ name)).plan.seed).load image = .ok m := hm
  obtain ⟨b, hb, hcourse⟩ := course_boot hload
  have hlines := lines_boot Report.heads_complains (by simp) hload
  have hback := backstage_boot hload
  rw [hb] at hlines hback
  refine ⟨b, (bootRom_of_read hname hread).trans hb, hcourse,
    Eq.trans hlines (complaints_loaded name s), ?_⟩
  have hthreshold : b.logger.threshold = _ := congrArg Backstage.threshold hback
  rw [hthreshold, backstage_log]
  exact Backstage.threshold_turn _ _

end Boot

/-! ### A run from the boot -/
section Booted
variable {plan : Plan} {m₀ : Machine} (hb : s.course = ⟨plan, m₀, 0, false, none⟩)
include hb

theorem input_of_course : s.input = none :=
  Option.map_eq_none_iff.1 (congrArg Course.upcoming hb)

theorem run_of_booted (hm : m₀.isFaulted = false) (hpos : 0 < plan.cyclesPerFrame)
    (hc : plan.Counts n) :
    let m := (Machine.frame plan.cyclesPerFrame)^[n.toNat] m₀
    let o := s.runTimed (.number n) false
    o.failure = m.failure? ∧ (o.failure = none → o.session.machine = m) ∧
      o.session.complaints = s.complaints ++ match o.failure with
        | some (.halt h) => if s.logger.threshold = .critical then [] else [Report.halt h]
        | _ => [] := by
  obtain ⟨hz, hticks⟩ := hc
  have hi := input_of_course hb
  simp only [course, Course.mk.injEq] at hb
  obtain ⟨rfl, rfl, hframes, -, -⟩ := hb
  obtain ⟨hz, hhz⟩ := Option.isSome_iff_exists.1 hz
  have hplay : n ≤ s.frames ∨ s.plan.Playable := by
    rw [hframes]
    exact hticks.imp_right fun hticks => ⟨hpos, hticks⟩
  have hdue : (n - (s.frames : Int)).toNat = n.toNat := by
    rw [hframes]
    omega
  have hrun := run_of_none (1.0 / hz) false hi hplay hm
  rw [hdue] at hrun
  rw [runTimed_number hhz]
  exact ⟨hrun.1, hrun.2, complaints_run _ _ s⟩

/-- Without a period there is no run, and with too many ticks the first frame is refused. -/
theorem run_of_not_counts (hc : ¬plan.Counts n) :
    (s.runTimed (.number n) false).failure = some .outOfRange ∧
      (s.runTimed (.number n) false).session.complaints = s.complaints := by
  have hi := input_of_course hb
  simp only [course, Course.mk.injEq] at hb
  obtain ⟨rfl, -, hframes, -, -⟩ := hb
  cases hz : Double.ofNat? s.plan.timerHz with
  | none =>
    rw [runTimed_of_none hz]
    exact ⟨rfl, rfl⟩
  | some hz' =>
    have hticks : ¬(n ≤ 0 ∨ s.plan.trace = true ∨ s.plan.cyclesPerFrame < 0x80000000) :=
      fun h => hc ⟨by rw [hz]; rfl, h⟩
    obtain ⟨hn, ht, hlarge⟩ : 0 < n ∧ s.plan.trace = false ∧
        0x80000000 ≤ s.plan.cyclesPerFrame := by
      simpa [not_or] using hticks
    have hfail := run_of_none_of_ge (1.0 / hz') false hi (by rw [hframes]; exact hn) ht hlarge
    have hsaid := complaints_run (n := n) (1.0 / hz') false s
    rw [hfail, List.append_nil] at hsaid
    rw [runTimed_number hz]
    exact ⟨hfail, hsaid⟩

end Booted

end Session

namespace CommandLine
open Session
variable {o : Outcome Float} {screen : Option String}

namespace Performance

/-- The errors that were logged, by their texts. -/
def complaints (p : Performance) : List String :=
  (p.events.toList.filterMap Event.message?).filter Report.complains

/-- The lines of the log as they are printed. -/
def logged (p : Performance) : List String :=
  p.events.toList.filterMap fun
    | .log line => some line.text
    | _ => none

theorem printed_eq (p : Performance) :
    p.printed = String.join (p.logged.map (· ++ "\n")) ++
      ((p.screen.map (· ++ "\n")).getD "") := by
  rw [printed, logged]
  refine congrArg (· ++ _) ?_
  induction p.events.toList with
  | nil => rfl
  | cons e es ih => cases e <;> simp [ih]

/-- What is printed last is the picture. -/
theorem printed_of_screen {p : Performance} {d : Display}
    (h : p.screen = some (d.toText "#" ".")) :
    p.printed = String.join ((p.logged ++ d.rows "#" ".").map (· ++ "\n")) := by
  have hrows : d.rows "#" "." ≠ [] := by
    rw [← List.length_pos_iff, Bitmap.length_rows]
    decide
  rw [printed_eq, h, List.map_append, String.join_append, ← Bitmap.intercalate_newline hrows]
  rfl

end Performance

/-! ### How a play ends -/

theorem conclude_of_none (hf : o.failure = none) :
    conclude o screen = { ending := .returned 0, events := o.session.events, screen } := by
  rw [conclude, hf]

theorem conclude_of_fault {c : Cause} {pc : Int}
    (hf : o.failure = some (.halt (.fault c none (some pc)))) :
    conclude o screen = { ending := .returned 1, events := o.session.events } := by
  rw [conclude, hf]
  rfl

theorem conclude_of_romTooLarge {size : Int}
    (hf : o.failure = some (.halt (.romTooLarge size))) :
    (conclude o screen).ending = .returned 1 ∧ (conclude o screen).screen = none ∧
      (conclude o screen).complaints = o.session.complaints ++
        if o.session.logger.threshold = .critical then []
        else [Report.halt (.romTooLarge size)] := by
  rw [conclude, hf]
  exact ⟨rfl, rfl, complaints_log (Report.complains_halt _) _⟩

theorem conclude_of_unread {name : String} {e : Failure} (hf : o.failure = some e)
    (he : e ∈ Files.refusals name) :
    (conclude o screen).ending = .returned 2 ∧ (conclude o screen).screen = none ∧
      (conclude o screen).complaints = o.session.complaints ++
        if o.session.logger.threshold = .critical then []
        else ["Could not read rom: " ++ e.message] := by
  have hsaid := complaints_log (Report.complains_unread e.message) o.session
  simp only [Files.refusals, List.mem_cons, List.not_mem_nil, or_false] at he
  obtain rfl | rfl | rfl | rfl | rfl := he <;>
  · rw [conclude, hf]
    exact ⟨rfl, rfl, hsaid⟩

/-! ### From the file to the end of the run -/
section Play
variable {s : Session Float} {files : Files} {name : String} {image : List UInt8}
  (hname : s.plan.romPath = some name)
include hname

theorem play_of_error {e : Failure} (he : files.read name = .error e) (limit : Setting)
    (paced : Bool) : play files limit paced s = { session := s, failure := some e } := by
  rw [play, bootRom_of_error (named_by_plan hname) he]
  rfl

theorem play_of_gt (hr : files.read name = .ok image) (hlen : 3584 < image.length)
    (limit : Setting) (paced : Bool) :
    ∃ b : Session Float, play files limit paced s =
        { session := b, failure := some (.halt (.romTooLarge image.length)) } ∧
      b.complaints = s.complaints ∧ b.logger.threshold = s.logger.threshold := by
  refine ⟨s.log .info ("Loaded " ++ name), ?_, complaints_loaded name s,
    Logger.threshold_log _ _ _⟩
  rw [play, bootRom_of_read hname hr, boot_of_gt hlen]
  rfl

theorem play_of_load (hr : files.read name = .ok image) {m : Machine}
    (hm : (Machine.create s.plan.seed).load image = .ok m) (limit : Setting) (paced : Bool) :
    ∃ b : Session Float, play files limit paced s = b.runTimed limit paced ∧
      b.course = ⟨s.plan, m, 0, false, s.input.map Input.upcoming⟩ ∧
      b.complaints = s.complaints ∧ b.logger.threshold = s.logger.threshold := by
  obtain ⟨b, hb, hcourse, hcomplaints, hlevel⟩ := bootRom_of_load hname hr hm
  refine ⟨b, ?_, hcourse, hcomplaints, hlevel⟩
  rw [play, hb]
  rfl

end Play

/-! ### From the command line to the play -/

theorem Job.of_arguments {a : Arguments} {wall : List Float} {job : Job}
    (h : Job.ofArguments a wall = .ok job) :
    job.config = a.config ∧ ∃ name, a.romPath = some name := by
  rw [ofArguments] at h
  by_cases hrom : a.romPath.all (· = "") = true
  · rw [if_pos hrom] at h
    cases h
  · rw [if_neg hrom] at h
    simp only [bind, Except.bind, pure, Except.pure] at h
    split at h
    · cases h
    · split at h
      · cases h
      · split at h
        · cases h
        · cases h
          obtain ⟨name, hname⟩ : ∃ name, a.romPath = some name := by
            refine Option.ne_none_iff_exists'.1 fun hnone => hrom ?_
            rw [hnone]
            rfl
          exact ⟨rfl, name, hname⟩

theorem romPath_of_config {a : Arguments} {name : String} {plan : Plan}
    (hname : a.romPath = some name) (hp : Plan.ofConfig a.config = .ok plan) :
    plan.romPath = some name := by
  refine Plan.romPath_of_text hp ?_
  rw [Arguments.config, hname]
  rfl

theorem perform_of_headless {argv : List String} {world : Surroundings} {a : Arguments} {n : Int}
    {job : Job} {plan : Plan} (ha : Arguments.parse argv = .ok a)
    (hn : a.headless = some (.value n)) (hj : Job.ofArguments a world.wall = .ok job)
    (hp : Plan.ofConfig job.config = .ok plan) :
    let o := play world.files (.number n) false
      (Session.create plan false false none job.logger ⟨0, []⟩)
    perform argv world = conclude o (some (o.session.machine.display.toText "#" ".")) := by
  simp only [perform, ha, hj, hn]
  simp only [Given.setting, headless, hp]

/-- A play without a window of any valid command line. A file that cannot be read ends it with code
2, one that is too large with code 1 and the notice of that. Any other file is booted: if the frames
of the machine come to a fault, the play ends with code 1 and the notice of that fault at its place,
and else with code 0 and the picture of the last frame as the last 32 lines. No error is logged
twice, and none is left out unless the threshold of the log is above errors. A run that has no
period, or frames of more ticks than can be counted, is broken off. -/
theorem headless_plays {argv : List String} {world : Surroundings} {a : Arguments} {n : Int}
    {job : Job} {plan : Plan} (ha : Arguments.parse argv = .ok a)
    (hn : a.headless = some (.value n)) (hj : Job.ofArguments a world.wall = .ok job)
    (hp : Plan.ofConfig job.config = .ok plan) :
    ∃ name, a.romPath = some name ∧
      let p := perform argv world
      let told (text : String) := if job.logger.threshold = .critical then [] else [text]
      (∀ e, world.files.read name = .error e → e ≠ .zeroInText →
        p.ending = .returned 2 ∧ p.screen = none ∧
          p.complaints = told ("Could not read rom: " ++ e.message)) ∧
      ∀ image, world.files.read name = .ok image →
        (3584 < image.length → p.ending = .returned 1 ∧ p.screen = none ∧
          p.complaints = told ("Halting (fatal, pre-execution): " ++
            Halt.text (.romTooLarge image.length))) ∧
        (image.length ≤ 3584 → ∃ m₀, (Machine.create plan.seed).load image = .ok m₀ ∧
          let m := (Machine.frame plan.cyclesPerFrame)^[n.toNat] m₀
          (plan.Counts n →
            (∀ f, m.status = .halted f → ∃ cause, Cause.ofFault? f = some cause ∧
              p.ending = .returned 1 ∧ p.screen = none ∧
              p.complaints = told ("Halting (fatal): " ++
                (cause.wording ++ (" (pc=0x" ++ Hex.signed 3 m.pc.toNat ++ ")")))) ∧
            (m.isFaulted = false → p.ending = .returned 0 ∧ p.complaints = [] ∧
              p.screen = some (m.display.toText "#" ".") ∧
              (m.display.rows "#" ".").length = 32 ∧
              (∀ row ∈ m.display.rows "#" ".", '\n' ∉ row.toList) ∧
              p.printed = String.join ((p.logged ++ m.display.rows "#" ".").map (· ++ "\n")))) ∧
          (¬plan.Counts n →
            p.ending = .failed .outOfRange ∧ p.screen = none ∧ p.complaints = [])) := by
  obtain ⟨hconfig, name, hname⟩ := Job.of_arguments hj
  have hperform := perform_of_headless ha hn hj hp
  rw [hconfig] at hp
  have hrom : (Session.create (τ := Float) plan false false none job.logger ⟨0, []⟩).plan.romPath =
      some name := romPath_of_config hname hp
  refine ⟨name, hname, fun e he hz => ?_, fun image hr => ⟨fun hlen => ?_, fun hlen => ?_⟩⟩
  · rw [hperform, play_of_error hrom he]
    exact conclude_of_unread rfl (Files.read_error he hz)
  · obtain ⟨b, hplay, hquiet, hlevel⟩ := play_of_gt hrom hr hlen (.number n) false
    rw [hperform, hplay, ← Report.halt_romTooLarge]
    refine (conclude_of_romTooLarge rfl).imp_right fun h => h.imp_right fun hsaid => ?_
    rw [hquiet, hlevel] at hsaid
    exact hsaid
  · obtain ⟨m₀, hm₀⟩ := Machine.load_of_length (.create plan.seed) image hlen
    have hw : m₀.control.WellFormed := by
      rw [Machine.load_control hm₀]
      exact .boot
    have hgoes : m₀.isFaulted = false := by
      rw [Machine.load_eq hm₀]
      rfl
    obtain ⟨b, hplay, hcourse, hquiet, hlevel⟩ := play_of_load hrom hr hm₀ (.number n) false
    rw [hperform, hplay]
    refine ⟨m₀, hm₀, fun hc => ?_, fun hc => ?_⟩
    · obtain ⟨hfail, hmachine, hsaid⟩ := run_of_booted hcourse hgoes
        (Plan.cyclesPerFrame_pos hp) hc
      rw [hquiet, hlevel] at hsaid
      refine ⟨fun f hf => ?_, fun hgo => ?_⟩
      · obtain ⟨cause, hcause, hfault⟩ := (Machine.frames_wellFormed hw _ _).cause hf
        have hend := hfail.trans hfault
        rw [hend] at hsaid
        refine ⟨cause, hcause, ?_⟩
        rw [conclude_of_fault hend, ← Report.halt_fault]
        exact ⟨rfl, rfl, hsaid⟩
      · have hend := hfail.trans (Machine.failure?_eq_none.2 hgo)
        rw [hend] at hsaid
        rw [conclude_of_none hend, hmachine hend]
        exact ⟨rfl, hsaid, rfl, Bitmap.length_rows _ _ _, Bitmap.newline_not_mem_rows _,
          Performance.printed_of_screen rfl⟩
    · obtain ⟨hend, hsaid⟩ := run_of_not_counts hcourse hc
      rw [hquiet] at hsaid
      rw [conclude, hend]
      exact ⟨rfl, rfl, hsaid⟩

/-- A file with a program that returns at once. -/
def returnsAtOnce : Surroundings := { files := [("ret", .file [0x00, 0xEE])] }

theorem headless_plays_returnsAtOnce :
    let p := perform ["ret", "--headless", "2"] returnsAtOnce
    p.ending = .returned 1 ∧ p.screen = none ∧
      p.complaints = ["Halting (fatal): stack underflow (pc=0x202)"] := by
  have ha : Arguments.parse ["ret", "--headless", "2"] =
      .ok { rom := some "ret", headless := some (.value 2) } := by decide +kernel
  have hj : Job.ofArguments { rom := some "ret", headless := some (.value 2) }
      returnsAtOnce.wall = .ok _ := rfl
  obtain ⟨name, hname, -, hread⟩ := headless_plays ha rfl hj rfl
  obtain rfl := Option.some.inj hname
  obtain ⟨m₀, hload, hplays, -⟩ := (hread [0x00, 0xEE] rfl).2 (by decide)
  obtain ⟨hhalts, -⟩ := hplays ⟨by decide +kernel, .inr (.inr (by decide +kernel))⟩
  obtain rfl := Except.ok.inj hload
  obtain ⟨cause, hcause, hending, hscreen, hsaid⟩ := hhalts .stackUnderflow (by decide +kernel)
  obtain rfl := Option.some.inj hcause
  refine ⟨hending, hscreen, hsaid.trans ?_⟩
  decide +kernel

/-- With 2147483648 ticks a frame it is broken off before it comes to its fault. -/
theorem headless_broken_off :
    ∃ (a : Arguments) (job : Job) (plan : Plan) (m₀ : Machine),
      Arguments.parse ["ret", "--headless", "1", "--speed", "128849018880"] = .ok a ∧
      a.headless = some (.value 1) ∧ Job.ofArguments a returnsAtOnce.wall = .ok job ∧
      Plan.ofConfig job.config = .ok plan ∧
      (Machine.create plan.seed).load [0x00, 0xEE] = .ok m₀ ∧
      (m₀.frame plan.cyclesPerFrame).status = .halted .stackUnderflow ∧
      (perform ["ret", "--headless", "1", "--speed", "128849018880"] returnsAtOnce).ending =
        .failed .outOfRange := by
  have ha : Arguments.parse ["ret", "--headless", "1", "--speed", "128849018880"] =
      .ok { rom := some "ret", speed := .value 128849018880, headless := some (.value 1) } := by
    decide +kernel
  refine ⟨_, _, _, _, ha, rfl, rfl, rfl, rfl, ?_, by decide +kernel⟩
  -- the first tick halts the machine, so the other 2147483647 need not be run
  rw [Machine.frame,
    Machine.cycles_of_step_halted (f := .stackUnderflow) (by decide +kernel) (by decide)]
  decide +kernel

end CommandLine
end Chip8
