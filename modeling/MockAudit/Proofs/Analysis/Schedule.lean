import MockAudit.Analysis.Batch
import Mathlib.Data.List.FinRange
import Mathlib.Data.List.Forall2

/-!
# Schedules of a batch

A schedule is a trace of requests for cancellation, starts and ends; the start of a unit looks once whether cancellation
was requested before. With one worker the units take their turns in the order of submission.
-/

namespace MockAudit.Batch

inductive Event (size : Nat) where
  | cancel
  | start (unit : Fin size)
  | finish (unit : Fin size)
deriving DecidableEq

inductive Progress where
  | waiting
  | running
  | done (outcome : Outcome)

def Progress.outcome? : Progress → Option Outcome
  | .done outcome => some outcome
  | _ => none

structure State (size : Nat) where
  cancelled : Bool := false
  progress : Fin size → Progress := fun _ => .waiting

namespace State
variable {size : Nat}

def advance (state : State size) (unit : Fin size) (progress : Progress) : State size :=
  { state with progress := Function.update state.progress unit progress }

def HasStarted (state : State size) (unit : Fin size) : Prop := state.progress unit ≠ .waiting

def IsDone (state : State size) (unit : Fin size) : Prop :=
  ∃ outcome, state.progress unit = .done outcome

def IsComplete (state : State size) : Prop := ∀ unit, state.IsDone unit

def report (state : State size) : Report :=
  Report.ofOutcomes ((List.finRange size).filterMap fun unit => (state.progress unit).outcome?)

@[simp] theorem advance_cancelled (state : State size) (unit : Fin size) (progress : Progress) :
    (state.advance unit progress).cancelled = state.cancelled := rfl

@[simp] theorem advance_progress_self (state : State size) (unit : Fin size) (progress : Progress) :
    (state.advance unit progress).progress unit = progress := by
  simp [advance]

@[simp] theorem advance_progress_of_ne (state : State size) {unit other : Fin size} (progress : Progress)
    (different : other ≠ unit) :
    (state.advance unit progress).progress other = state.progress other := by
  simp [advance, different]

theorem IsDone.hasStarted {state : State size} {unit : Fin size} (done : state.IsDone unit) :
    state.HasStarted unit := by
  obtain ⟨outcome, ended⟩ := done
  simp [HasStarted, ended]

theorem hasStarted_advance {state : State size} {unit other : Fin size} {progress : Progress}
    (moves : progress ≠ .waiting) :
    (state.advance unit progress).HasStarted other ↔ other = unit ∨ state.HasStarted other := by
  by_cases same : other = unit
  · simp [HasStarted, same, moves]
  · simp [HasStarted, same]

theorem report_eq {state : State size} {fate : Fin size → Outcome}
    (done : ∀ unit, state.progress unit = .done (fate unit)) :
    state.report = Report.ofOutcomes ((List.finRange size).map fate) := by
  simp [report, done, Progress.outcome?]

end State

section
variable (analyzer : Analyzer) (providers : List Provider) (parallelism : Option UInt64)

def InTurn (state : State providers.length) (unit : Fin providers.length) : Prop :=
  parallelism = some 1 → ∀ earlier < unit, state.HasStarted earlier

inductive Step : State providers.length → Event providers.length → State providers.length → Prop
  | cancel {state} : Step state .cancel { state with cancelled := true }
  | skip {state} (unit) (waiting : state.progress unit = .waiting)
      (turn : InTurn providers parallelism state unit) (requested : state.cancelled = true) :
      Step state (.start unit) (state.advance unit (.done (analyzer.outcome true (providers.get unit))))
  | start {state} (unit) (waiting : state.progress unit = .waiting)
      (turn : InTurn providers parallelism state unit) (unrequested : state.cancelled = false) :
      Step state (.start unit) (state.advance unit .running)
  | finish {state} (unit) (running : state.progress unit = .running)
      (cancels : (providers.get unit).cancels = true → state.cancelled = true) :
      Step state (.finish unit) (state.advance unit (.done (analyzer.outcome false (providers.get unit))))

inductive Run : List (Event providers.length) → State providers.length → Prop
  | nil : Run [] {}
  | concat {trace state event next} (run : Run trace state)
      (step : Step analyzer providers parallelism state event next) : Run (trace ++ [event]) next

end

def Skips {size : Nat} (trace : List (Event size)) (unit : Fin size) : Prop :=
  [.cancel, .start unit].Sublist trace

instance {size : Nat} (trace : List (Event size)) (unit : Fin size) : Decidable (Skips trace unit) :=
  inferInstanceAs (Decidable (List.Sublist _ _))

section
variable {size : Nat} {trace : List (Event size)} {event : Event size} {unit : Fin size}

theorem skips_concat :
    Skips (trace ++ [event]) unit ↔ Skips trace unit ∨ (.cancel ∈ trace ∧ event = .start unit) := by
  unfold Skips
  constructor
  · intro sublist
    obtain ⟨front, back, split, inTrace, inLast⟩ := List.sublist_append_iff.1 sublist
    rcases List.sublist_singleton.1 inLast with rfl | rfl
    · rw [List.append_nil] at split
      exact .inl (split ▸ inTrace)
    · have ends : [Event.cancel] ++ [Event.start unit] = front ++ [event] := split
      obtain ⟨rfl, same⟩ := List.append_inj' ends rfl
      exact .inr ⟨List.singleton_sublist.1 inTrace, (List.singleton_inj.1 same).symm⟩
  · rintro (sublist | ⟨requested, rfl⟩)
    · exact sublist.trans (List.sublist_append_left ..)
    · exact (List.singleton_sublist.2 requested).append (List.Sublist.refl [Event.start unit])

theorem Skips.requested (skips : Skips trace unit) : .cancel ∈ trace :=
  skips.subset (by simp)

theorem skips_concat_of_ne (other : event ≠ .start unit) :
    Skips (trace ++ [event]) unit ↔ Skips trace unit := by
  simp [skips_concat, other]

end

section Explanation
variable {analyzer : Analyzer} {providers : List Provider} {parallelism : Option UInt64}
variable {trace : List (Event providers.length)} {event : Event providers.length}
variable {state next : State providers.length} {unit : Fin providers.length}

def Explains (analyzer : Analyzer) (providers : List Provider) (trace : List (Event providers.length))
    (unit : Fin providers.length) : Progress → Prop
  | .waiting => trace.count (.start unit) = 0
  | .running => trace.count (.start unit) = 1 ∧ ¬ Skips trace unit
  | .done outcome =>
      trace.count (.start unit) = 1 ∧
        outcome = analyzer.outcome (decide (Skips trace unit)) (providers.get unit)

structure Explained (analyzer : Analyzer) (providers : List Provider) (trace : List (Event providers.length))
    (state : State providers.length) : Prop where
  cancelled : state.cancelled = true ↔ .cancel ∈ trace
  progress : ∀ unit, Explains analyzer providers trace unit (state.progress unit)

theorem Explains.concat {progress : Progress} (explains : Explains analyzer providers trace unit progress)
    (other : event ≠ .start unit) : Explains analyzer providers (trace ++ [event]) unit progress := by
  cases progress <;> simpa [Explains, skips_concat_of_ne other, List.count_singleton, other] using explains

theorem not_skips_of_count (unstarted : trace.count (.start unit) = 0) : ¬ Skips trace unit := by
  intro skips
  exact List.count_eq_zero.1 unstarted (skips.subset (by simp))

theorem Explained.advance {progress : Progress} (explained : Explained analyzer providers trace state)
    (moves : event ≠ .cancel) (own : ∀ other, event = .start other → other = unit)
    (explains : Explains analyzer providers (trace ++ [event]) unit progress) :
    Explained analyzer providers (trace ++ [event]) (state.advance unit progress) := by
  refine ⟨by simp [explained.cancelled, moves.symm], fun other => ?_⟩
  by_cases same : other = unit
  · subst same
    rwa [State.advance_progress_self]
  · rw [State.advance_progress_of_ne _ _ same]
    exact (explained.progress other).concat fun starts => same (own other starts)

theorem Explained.step (explained : Explained analyzer providers trace state)
    (step : Step analyzer providers parallelism state event next) :
    Explained analyzer providers (trace ++ [event]) next := by
  cases step with
  | cancel => exact ⟨by simp, fun unit => (explained.progress unit).concat (by simp)⟩
  | skip unit waiting turn requested =>
      have unstarted := explained.progress unit
      rw [waiting] at unstarted
      have skips : Skips (trace ++ [.start unit]) unit :=
        skips_concat.2 (.inr ⟨explained.cancelled.1 requested, rfl⟩)
      apply explained.advance (by simp) (by simp)
      simpa [Explains, skips] using unstarted
  | start unit waiting turn unrequested =>
      have unstarted := explained.progress unit
      rw [waiting] at unstarted
      have unasked : .cancel ∉ trace := by simp [← explained.cancelled, unrequested]
      have runs : ¬ Skips (trace ++ [.start unit]) unit := by
        simp [skips_concat, unasked, not_skips_of_count unstarted]
      apply explained.advance (by simp) (by simp)
      exact ⟨by simpa [Explains] using unstarted, runs⟩
  | finish unit running cancels =>
      -- A unit that runs was not skipped, and the end of a unit is no start.
      have started : Explains analyzer providers (trace ++ [.finish unit]) unit (state.progress unit) :=
        (explained.progress unit).concat (by simp)
      rw [running] at started
      apply explained.advance (by simp) (by simp)
      simp [Explains, started.1, started.2]

theorem Run.explained (run : Run analyzer providers parallelism trace state) :
    Explained analyzer providers trace state := by
  induction run with
  | nil => exact ⟨by simp, fun unit => by simp [Explains]⟩
  | concat run step ih => exact ih.step step

end Explanation

section Order
variable {analyzer : Analyzer} {providers : List Provider}
variable {trace : List (Event providers.length)} {event : Event providers.length}
variable {state next : State providers.length} {unit : Fin providers.length}

structure InOrder (trace : List (Event providers.length)) (state : State providers.length) : Prop where
  started : ∀ earlier later, earlier < later → state.HasStarted later → state.HasStarted earlier
  skips : ∀ earlier later, earlier < later → state.HasStarted later →
    Skips trace earlier → Skips trace later

theorem InOrder.start {progress : Progress} (order : InOrder trace state) (moves : progress ≠ .waiting)
    (waiting : state.progress unit = .waiting) (turn : ∀ earlier < unit, state.HasStarted earlier) :
    InOrder (trace ++ [.start unit]) (state.advance unit progress) := by
  have unstarted : ¬ state.HasStarted unit := by simp [State.HasStarted, waiting]
  constructor
  · intro earlier later before begun
    apply (State.hasStarted_advance moves).2
    rcases (State.hasStarted_advance moves).1 begun with rfl | begun
    · exact .inr (turn earlier before)
    · exact .inr (order.started earlier later before begun)
  · intro earlier later before begun skips
    rcases (State.hasStarted_advance moves).1 begun with rfl | begun
    -- The request that the earlier unit found is still there when this one starts.
    · rw [skips_concat_of_ne (by simpa using before.ne')] at skips
      exact skips_concat.2 (.inr ⟨skips.requested, rfl⟩)
    · have different : unit ≠ earlier := by
        rintro rfl
        exact unstarted (order.started unit later before begun)
      rw [skips_concat_of_ne (by simpa using different)] at skips
      exact skips_concat.2 (.inl (order.skips earlier later before begun skips))

theorem InOrder.keep (order : InOrder trace state) (other : ∀ unit, event ≠ .start unit)
    (started : ∀ unit, next.HasStarted unit ↔ state.HasStarted unit) :
    InOrder (trace ++ [event]) next := by
  constructor
  · intro earlier later before
    rw [started, started]
    exact order.started earlier later before
  · intro earlier later before
    rw [started, skips_concat_of_ne (other earlier), skips_concat_of_ne (other later)]
    exact order.skips earlier later before

theorem InOrder.step (order : InOrder trace state)
    (step : Step analyzer providers (some 1) state event next) : InOrder (trace ++ [event]) next := by
  cases step with
  | cancel => exact order.keep (by simp) fun _ => Iff.rfl
  | skip unit waiting turn requested => exact order.start (by simp) waiting (turn rfl)
  | start unit waiting turn unrequested => exact order.start (by simp) waiting (turn rfl)
  | finish unit running cancels =>
      apply order.keep (by simp)
      intro other
      rw [State.hasStarted_advance (by simp), or_iff_right_of_imp]
      rintro rfl
      simp [State.HasStarted, running]

theorem Run.inOrder (run : Run analyzer providers (some 1) trace state) : InOrder trace state := by
  induction run with
  | nil => exact ⟨fun _ _ _ started => absurd rfl started, fun _ _ _ started => absurd rfl started⟩
  | concat run step ih => exact ih.step step

theorem filter_suffix_of_pairwise {α : Type} {keep : α → Bool} {list : List α}
    (closed : list.Pairwise fun first second => keep first → keep second) : list.filter keep <:+ list := by
  induction closed with
  | nil => exact List.suffix_refl _
  | @cons first rest onward _ ih =>
      cases kept : keep first with
      | false =>
          rw [List.filter_cons_of_neg (by simp [kept])]
          exact ih.trans (List.suffix_cons first rest)
      | true =>
          have all : ∀ member ∈ first :: rest, keep member := by
            intro member inside
            rcases List.mem_cons.1 inside with rfl | later
            · exact kept
            · exact onward member later kept
          simp only [List.filter_eq_self.2 all, List.suffix_refl]

end Order

section Completion
variable {analyzer : Analyzer} {providers : List Provider} {parallelism : Option UInt64}
variable {trace : List (Event providers.length)} {state : State providers.length}
variable {unit : Fin providers.length}

def State.settle (analyzer : Analyzer) (state : State providers.length) (skipped : Bool)
    (unit : Fin providers.length) : State providers.length :=
  { state with cancelled := state.cancelled || (providers.get unit).cancels }.advance unit
    (.done (analyzer.outcome skipped (providers.get unit)))

theorem State.settle_isDone {skipped : Bool} {other : Fin providers.length}
    (done : other ≠ unit → state.IsDone other) : (state.settle analyzer skipped unit).IsDone other := by
  by_cases same : other = unit
  · exact ⟨_, by rw [same, settle, advance_progress_self]⟩
  · simpa [settle, IsDone, same] using done same

theorem Run.exists_finish (run : Run analyzer providers parallelism trace state)
    (running : state.progress unit = .running) :
    ∃ later, Run analyzer providers parallelism (trace ++ later) (state.settle analyzer false unit) := by
  unfold State.settle
  cases cancels : (providers.get unit).cancels with
  | false =>
      rw [Bool.or_false]
      exact ⟨[.finish unit], run.concat (.finish unit running (by rw [cancels]; exact nofun))⟩
  | true =>
      have finished := (run.concat .cancel).concat (.finish unit running (fun _ => rfl))
      rw [List.append_assoc] at finished
      rw [Bool.or_true]
      exact ⟨_, finished⟩

theorem Run.exists_turn (run : Run analyzer providers parallelism trace state)
    (waiting : state.progress unit = .waiting) (turn : InTurn providers parallelism state unit) :
    ∃ later, Run analyzer providers parallelism (trace ++ later)
      (state.settle analyzer state.cancelled unit) := by
  cases requested : state.cancelled with
  | true =>
      refine ⟨[.start unit], ?_⟩
      have skipped := run.concat (.skip unit waiting turn requested)
      simpa [State.settle, State.advance, requested] using skipped
  | false =>
      have started := run.concat (.start unit waiting turn requested)
      obtain ⟨later, finished⟩ := started.exists_finish (State.advance_progress_self ..)
      refine ⟨.start unit :: later, ?_⟩
      simpa [State.settle, State.advance] using finished

theorem Run.exists_isDone (run : Run analyzer providers parallelism trace state)
    (turn : ∀ earlier < unit, state.IsDone earlier) :
    ∃ later final, Run analyzer providers parallelism (trace ++ later) final ∧
      ∀ other ≤ unit, final.IsDone other := by
  have upTo : ∀ skipped, ∀ other ≤ unit, (state.settle analyzer skipped unit).IsDone other := by
    intro skipped other before
    exact State.settle_isDone fun different => turn other (lt_of_le_of_ne before different)
  cases progress : state.progress unit with
  | waiting =>
      have inTurn : InTurn providers parallelism state unit :=
        fun _ earlier before => (turn earlier before).hasStarted
      obtain ⟨later, next⟩ := run.exists_turn progress inTurn
      exact ⟨later, _, next, upTo _⟩
  | running =>
      obtain ⟨later, next⟩ := run.exists_finish progress
      exact ⟨later, _, next, upTo _⟩
  | done outcome =>
      refine ⟨[], state, by simpa using run, fun other before => ?_⟩
      rcases before.eq_or_lt with rfl | earlier
      · exact ⟨outcome, progress⟩
      · exact turn other earlier

/-- The units are brought to an end from the first one on, so that with one worker each has its turn. -/
theorem Run.exists_done_below (run : Run analyzer providers parallelism trace state) {count : Nat}
    (bound : count ≤ providers.length) :
    ∃ later final, Run analyzer providers parallelism (trace ++ later) final ∧
      ∀ unit : Fin providers.length, unit.val < count → final.IsDone unit := by
  induction count with
  | zero => exact ⟨[], state, by simpa using run, fun _ before => absurd before (Nat.not_lt_zero _)⟩
  | succ count ih =>
      obtain ⟨later, middle, run, done⟩ := ih (by omega)
      have turn : ∀ earlier < (⟨count, bound⟩ : Fin providers.length), middle.IsDone earlier := done
      obtain ⟨rest, final, run, done⟩ := run.exists_isDone turn
      refine ⟨later ++ rest, final, by simpa using run, fun unit before => ?_⟩
      exact done unit (Nat.le_of_lt_succ before)

theorem Run.exists_complete (run : Run analyzer providers parallelism trace state) :
    ∃ later final, Run analyzer providers parallelism (trace ++ later) final ∧ final.IsComplete := by
  obtain ⟨later, final, run, done⟩ := run.exists_done_below le_rfl
  exact ⟨later, final, run, fun unit => done unit unit.isLt⟩

end Completion

section Execution
variable (analyzer : Analyzer) (providers : List Provider) (parallelism : Option UInt64) (cancelled : Bool)

def cancelledAfter (count : Nat) : Bool := cancelled || (providers.take count).any (·.cancels)

def fateInTurn (unit : Fin providers.length) : Outcome :=
  analyzer.outcome (cancelledAfter providers cancelled unit) (providers.get unit)

theorem cancelledAfter_succ (unit : Fin providers.length) :
    cancelledAfter providers cancelled (unit + 1) =
      (cancelledAfter providers cancelled unit || (providers.get unit).cancels) := by
  unfold cancelledAfter
  rw [List.take_succ_eq_append_getElem unit.isLt, List.any_append, Bool.or_assoc]
  simp

theorem outcomes_eq :
    analyzer.outcomes cancelled providers =
      ((List.finRange providers.length).map (fateInTurn analyzer providers cancelled),
        cancelledAfter providers cancelled providers.length) := by
  induction providers generalizing cancelled with
  | nil => simp [Analyzer.outcomes, cancelledAfter]
  | cons provider rest ih =>
      simp [Analyzer.outcomes, ih, fateInTurn, cancelledAfter, List.finRange_succ, Function.comp_def,
        Bool.or_assoc]

def inTurns (count : Nat) : State providers.length where
  cancelled := cancelledAfter providers cancelled count
  progress unit := if unit < count then .done (fateInTurn analyzer providers cancelled unit) else .waiting

theorem settle_inTurns (unit : Fin providers.length) :
    (inTurns analyzer providers cancelled unit).settle analyzer
      (cancelledAfter providers cancelled unit) unit =
      inTurns analyzer providers cancelled (unit + 1) := by
  unfold State.settle State.advance inTurns
  rw [cancelledAfter_succ]
  congr 1
  funext other
  by_cases same : other = unit
  · simp [same, fateInTurn]
  · have different : other.val ≠ unit.val := fun equal => same (Fin.ext equal)
    have before : other.val < unit.val + 1 ↔ other.val < unit.val := by omega
    simp [same, before]

theorem exists_run_inTurns {count : Nat} (bound : count ≤ providers.length) :
    ∃ trace, Run analyzer providers parallelism trace (inTurns analyzer providers cancelled count) := by
  induction count with
  | zero =>
      cases cancelled with
      | false => exact ⟨[], .nil⟩
      | true => exact ⟨_, Run.nil.concat .cancel⟩
  | succ count ih =>
      obtain ⟨trace, run⟩ := ih (by omega)
      let unit : Fin providers.length := ⟨count, bound⟩
      have waiting : (inTurns analyzer providers cancelled count).progress unit = .waiting := by
        simp [inTurns, unit]
      have turn : InTurn providers parallelism (inTurns analyzer providers cancelled count) unit := by
        intro _ earlier before
        have earlierBefore : earlier.val < count := before
        simp [State.HasStarted, inTurns, earlierBefore]
      obtain ⟨later, next⟩ := run.exists_turn waiting turn
      exact ⟨_, settle_inTurns analyzer providers cancelled unit ▸ next⟩

theorem exists_run_batch :
    ∃ trace final, Run analyzer providers parallelism trace final ∧ final.IsComplete ∧
      (final.report, final.cancelled) = analyzer.batch cancelled providers := by
  obtain ⟨trace, run⟩ := exists_run_inTurns analyzer providers parallelism cancelled le_rfl
  have done : ∀ unit, (inTurns analyzer providers cancelled providers.length).progress unit =
      .done (fateInTurn analyzer providers cancelled unit) := fun unit => if_pos unit.isLt
  refine ⟨trace, _, run, fun unit => ⟨_, done unit⟩, ?_⟩
  rw [State.report_eq done, Analyzer.batch, outcomes_eq]
  rfl

end Execution

section Division
variable {size : Nat} {β : Type} (fate : Fin size → Outcome) (pick : Outcome → Option β)

def part : List (Fin size) := (List.finRange size).filter fun unit => (pick (fate unit)).isSome

theorem mem_part {unit : Fin size} : unit ∈ part fate pick ↔ ∃ entry, pick (fate unit) = some entry := by
  simp [part, Option.isSome_iff_exists]

theorem part_pairwise : (part fate pick).Pairwise (· < ·) :=
  (List.pairwise_lt_finRange size).filter _

theorem forall₂_filterMap {α : Type} (choose : α → Option β) (list : List α) :
    List.Forall₂ (fun first second => choose first = some second)
      (list.filter fun first => (choose first).isSome) (list.filterMap choose) := by
  induction list with
  | nil => exact .nil
  | cons first rest ih =>
      cases chosen : choose first with
      | none => simpa [chosen] using ih
      | some second => simpa [chosen] using ih

theorem forall₂_part :
    List.Forall₂ (fun unit entry => pick (fate unit) = some entry) (part fate pick)
      (((List.finRange size).map fate).filterMap pick) := by
  rw [List.filterMap_map]
  exact forall₂_filterMap (pick ∘ fate) (List.finRange size)

theorem parts_perm :
    (part fate Outcome.file? ++ part fate Outcome.failure? ++ part fate Outcome.skipped?).Perm
      (List.finRange size) := by
  unfold part
  induction List.finRange size with
  | nil => exact .nil
  | cons unit rest ih =>
      cases ended : fate unit with
      | analysed file => simpa [ended, Outcome.file?, Outcome.failure?, Outcome.skipped?] using ih
      | failed failure =>
          rw [List.append_assoc] at ih
          have moved := List.perm_middle.trans (ih.cons unit)
          simpa [ended, Outcome.file?, Outcome.failure?, Outcome.skipped?] using moved
      | skipped path =>
          have moved := List.perm_middle.trans (ih.cons unit)
          simpa [ended, Outcome.file?, Outcome.failure?, Outcome.skipped?] using moved

end Division

section Settlement
variable {analyzer : Analyzer} {providers : List Provider} {parallelism : Option UInt64}
variable {trace : List (Event providers.length)} {state : State providers.length}

theorem outcome_file?_eq_some {cancelled : Bool} {provider : Provider} {file : FileReport} :
    (analyzer.outcome cancelled provider).file? = some file ↔
      ¬ cancelled ∧ ∃ unit, provider.load = .ok unit ∧ file = ⟨unit.path, analyzer.analyze unit⟩ := by
  cases cancelled <;> cases loaded : provider.load <;>
    simp [Analyzer.outcome, Outcome.file?, loaded, eq_comm]

theorem outcome_failure?_eq_some {cancelled : Bool} {provider : Provider} {failure : Failure} :
    (analyzer.outcome cancelled provider).failure? = some failure ↔
      ¬ cancelled ∧ ∃ cause, provider.load = .error cause ∧ failure = ⟨provider.path, cause.message⟩ := by
  cases cancelled <;> cases loaded : provider.load <;>
    simp [Analyzer.outcome, Outcome.failure?, loaded, eq_comm]

theorem outcome_skipped?_eq_some {cancelled : Bool} {provider : Provider} {path : String} :
    (analyzer.outcome cancelled provider).skipped? = some path ↔ cancelled ∧ path = provider.path := by
  cases cancelled <;> cases loaded : provider.load <;>
    simp [Analyzer.outcome, Outcome.skipped?, loaded, eq_comm]

structure Settles (analyzer : Analyzer) (providers : List Provider) (trace : List (Event providers.length))
    (report : Report) (analysed failed skipped : List (Fin providers.length)) : Prop where
  started : ∀ unit, trace.count (.start unit) = 1
  partition : (analysed ++ failed ++ skipped).Perm (List.finRange providers.length)
  ordered : ∀ units ∈ [analysed, failed, skipped], units.Pairwise (· < ·)
  mem_skipped : ∀ unit, unit ∈ skipped ↔ Skips trace unit
  mem_failed : ∀ unit, unit ∈ failed ↔
    ¬ Skips trace unit ∧ ∃ cause, (providers.get unit).load = .error cause
  mem_analysed : ∀ unit, unit ∈ analysed ↔
    ¬ Skips trace unit ∧ ∃ loaded, (providers.get unit).load = .ok loaded
  skips : List.Forall₂ (fun unit path => path = (providers.get unit).path) skipped report.skipped
  failures : List.Forall₂ (fun unit failure => ∃ cause, (providers.get unit).load = .error cause ∧
    failure = ⟨(providers.get unit).path, cause.message⟩) failed report.failures
  files : List.Forall₂ (fun unit file => ∃ loaded, (providers.get unit).load = .ok loaded ∧
    file = ⟨loaded.path, analyzer.analyze loaded⟩) analysed report.files
  status : report.status = .cancelled ↔ report.skipped ≠ []

def fate (analyzer : Analyzer) (providers : List Provider) (trace : List (Event providers.length))
    (unit : Fin providers.length) : Outcome :=
  analyzer.outcome (decide (Skips trace unit)) (providers.get unit)

theorem Run.settles (run : Run analyzer providers parallelism trace state) (complete : state.IsComplete) :
    Settles analyzer providers trace state.report
      (part (fate analyzer providers trace) Outcome.file?)
      (part (fate analyzer providers trace) Outcome.failure?)
      (part (fate analyzer providers trace) Outcome.skipped?) := by
  have explains : ∀ unit, trace.count (.start unit) = 1 ∧
      state.progress unit = .done (fate analyzer providers trace unit) := by
    intro unit
    obtain ⟨outcome, done⟩ := complete unit
    have explains := run.explained.progress unit
    rw [done] at explains ⊢
    exact ⟨explains.1, congrArg _ explains.2⟩
  have entries {β : Type} (pick : Outcome → Option β) :=
    forall₂_part (fate analyzer providers trace) pick
  rw [State.report_eq fun unit => (explains unit).2]
  exact {
    started := fun unit => (explains unit).1
    partition := parts_perm _
    ordered := by simp [part_pairwise]
    mem_skipped := by simp [mem_part, fate, outcome_skipped?_eq_some]
    mem_failed := by simp [mem_part, fate, outcome_failure?_eq_some]
    mem_analysed := by simp [mem_part, fate, outcome_file?_eq_some]
    skips := (entries _).imp fun _ _ picked => (outcome_skipped?_eq_some.1 picked).2
    failures := (entries _).imp fun _ _ picked => (outcome_failure?_eq_some.1 picked).2
    files := (entries _).imp fun _ _ picked => (outcome_file?_eq_some.1 picked).2
    status := by simp [Report.ofOutcomes] }

theorem Run.skipped_suffix (run : Run analyzer providers (some 1) trace state)
    (complete : state.IsComplete) :
    part (fate analyzer providers trace) Outcome.skipped? <:+ List.finRange providers.length := by
  apply filter_suffix_of_pairwise
  apply (List.pairwise_lt_finRange providers.length).imp
  intro earlier later before
  simpa [Option.isSome_iff_exists, fate, outcome_skipped?_eq_some] using
    run.inOrder.skips earlier later before (complete later).hasStarted

/-- Every schedule can be carried on until all units are done, and then each unit is in one list of the report, in the
order of submission. With one worker the skipped units are the last ones. The batch that is executed is one of the
schedules. -/
theorem every_schedule_settles (analyzer : Analyzer) (providers : List Provider)
    (parallelism : Option UInt64) :
    (∀ trace state, Run analyzer providers parallelism trace state →
      (∃ later final, Run analyzer providers parallelism (trace ++ later) final ∧ final.IsComplete) ∧
      (state.IsComplete → ∃ analysed failed skipped,
        Settles analyzer providers trace state.report analysed failed skipped ∧
        (parallelism = some 1 → skipped <:+ List.finRange providers.length))) ∧
    ∀ cancelled, ∃ trace final, Run analyzer providers parallelism trace final ∧ final.IsComplete ∧
      (final.report, final.cancelled) = analyzer.batch cancelled providers := by
  constructor
  · intro trace state run
    refine ⟨run.exists_complete, fun complete => ⟨_, _, _, run.settles complete, ?_⟩⟩
    rintro rfl
    exact run.skipped_suffix complete
  · exact exists_run_batch analyzer providers parallelism

def goneUnits : List Provider :=
  [⟨"A.json", .error (.unreadable "A.json" "gone"), false⟩,
    ⟨"B.json", .error (.unreadable "B.json" "gone"), false⟩]

def firstGone : Fin goneUnits.length := ⟨0, by decide⟩

def secondGone : Fin goneUnits.length := ⟨1, by decide⟩

def outOfOrder : List (Event goneUnits.length) :=
  [.start secondGone, .cancel, .start firstGone, .finish secondGone]

theorem exists_run_outOfOrder :
    ∃ state, Run ⟨Rule.catalogue, {}⟩ goneUnits none outOfOrder state ∧ state.IsComplete ∧
      state.report = ⟨[], [⟨"B.json", "Failed to read B.json: gone"⟩], ["A.json"], .cancelled⟩ := by
  have started : Run ⟨Rule.catalogue, {}⟩ goneUnits none [.start secondGone] _ :=
    Run.nil.concat (.start secondGone rfl (by simp [InTurn]) rfl)
  have skipped := (started.concat .cancel).concat (.skip firstGone rfl (by simp [InTurn]) rfl)
  refine ⟨_, skipped.concat (.finish secondGone rfl fun _ => rfl), fun unit => ?_, by decide⟩
  match unit with
  | ⟨0, _⟩ => exact ⟨_, rfl⟩
  | ⟨1, _⟩ => exact ⟨_, rfl⟩

theorem every_schedule_settles_outOfOrder :
    ∃ state, Run ⟨Rule.catalogue, {}⟩ goneUnits none outOfOrder state ∧ state.IsComplete ∧
      state.report = ⟨[], [⟨"B.json", "Failed to read B.json: gone"⟩], ["A.json"], .cancelled⟩ ∧
      ∃ analysed failed skipped,
        Settles ⟨Rule.catalogue, {}⟩ goneUnits outOfOrder state.report analysed failed skipped := by
  obtain ⟨state, run, complete, report⟩ := exists_run_outOfOrder
  obtain ⟨analysed, failed, skipped, settles, -⟩ :=
    ((every_schedule_settles ⟨Rule.catalogue, {}⟩ goneUnits none).1 _ _ run).2 complete
  exact ⟨state, run, complete, report, analysed, failed, skipped, settles⟩

end Settlement

end MockAudit.Batch
