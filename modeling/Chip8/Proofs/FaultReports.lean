import Chip8.Proofs.Faults

/-! Three reports of the same faults. The tally starts again with every reset and load, the listener
outlives both until another takes its place, and the log forgets nothing; all of them follow what
the processor raised, also behind the greatest count. -/
namespace Chip8

namespace FaultLog

/-- The log counts these faults, as far as its counters go, and shows the last of them. -/
structure Tallies (log : FaultLog) (faults : List Fault) : Prop where
  count : ∀ kind,
    (log.count kind).toNat = min (faults.countP fun fault => fault.kind = kind) (2 ^ 32 - 1)
  last : log.last = faults.getLast?

variable {log : FaultLog} {faults : List Fault}

theorem tallies_nil : ({} : FaultLog).Tallies [] where
  count kind := by cases kind <;> rfl
  last := rfl

theorem Tallies.record (tallies : log.Tallies faults) (fault : Fault) :
    (log.record fault).Tallies (faults ++ [fault]) where
  count kind := by
    rw [toNat_count_record, tallies.count, List.countP_append, List.countP_singleton]
    simp only [decide_eq_true_eq]
    split <;> omega
  last := by rw [last_record, List.getLast?_concat]

theorem Tallies.recordAll (tallies : log.Tallies faults) (fault? : Option Fault) :
    (fault?.elim log log.record).Tallies (faults ++ fault?.toList) := by
  cases fault? with
  | none => simpa using tallies
  | some fault => exact tallies.record fault

theorem length_eq_counts (faults : List Fault) : faults.length =
    (faults.countP fun fault => fault.kind = .overflow) +
      (faults.countP fun fault => fault.kind = .underflow) +
      (faults.countP fun fault => fault.kind = .unknown) := by
  induction faults with
  | nil => rfl
  | cons fault rest ih =>
    rw [List.length_cons, ih]
    cases fault <;> simp [Fault.kind] <;> omega

/-- Stopping each counter at the limit and then their sum is stopping the true sum. -/
theorem Tallies.toNat_total (tallies : log.Tallies faults) :
    log.total.toNat = min faults.length (2 ^ 32 - 1) := by
  have overflows : log.overflows.toNat = _ := tallies.count .overflow
  have underflows : log.underflows.toNat = _ := tallies.count .underflow
  have unknown : log.unknown.toNat = _ := tallies.count .unknown
  rw [total, toNat_plus, toNat_plus, limit_eq, overflows, underflows, unknown, length_eq_counts]
  omega

theorem Tallies.isEmpty_iff (tallies : log.Tallies faults) : log.isEmpty = true ↔ faults = [] := by
  rw [isEmpty, tallies.last, Option.isNone_iff_eq_none, List.getLast?_eq_none_iff]

theorem Tallies.total_eq_zero_iff (tallies : log.Tallies faults) : log.total = 0 ↔ faults = [] := by
  have total := tallies.toNat_total
  rw [← UInt32.toNat_inj, total, ← List.length_eq_zero_iff, UInt32.toNat_zero]
  omega

end FaultLog

namespace Event

def messages (level : Level) (events : List Event) : List String :=
  events.filterMap fun event => event.entry?.bind fun (weight, message) =>
    if weight = level then some message else none

/-- Nothing but a fault is a warning. -/
theorem messages_warn (events : List Event) :
    messages .warn events = (faults events).map Fault.message := by
  rw [messages, faults, List.map_filterMap]
  congr 1
  funext event
  cases event <;> rfl

/-- Events that tell of no fault. -/
def Quiet : Event → Prop
  | faulted _ | delivered _ _ => False
  | _ => True

section Quiet
variable {events : List Event} (quiet : ∀ event ∈ events, event.Quiet) (later : List Event)

include quiet in
theorem filterMap_append_quiet {α : Type} {read : Event → Option α}
    (blind : ∀ event, event.Quiet → read event = none) :
    (events ++ later).filterMap read = later.filterMap read := by
  have silent : events.filterMap read = [] := by
    apply List.filterMap_eq_nil_iff.mpr
    intro event member
    exact blind event (quiet event member)
  rw [List.filterMap_append, silent, List.nil_append]

include quiet in
theorem faults_append_quiet : faults (events ++ later) = faults later := by
  apply filterMap_append_quiet quiet
  intro event quiet
  cases event with
  | faulted => exact quiet.elim
  | _ => rfl

include quiet in
theorem deliveries_append_quiet : deliveries (events ++ later) = deliveries later := by
  apply filterMap_append_quiet quiet
  intro event quiet
  cases event with
  | delivered => exact quiet.elim
  | _ => rfl

end Quiet

end Event

theorem Console.quiet_cycle (c : Console) : ∀ event ∈ c.cycle.events, event.Quiet := by
  have announced (pc : Address) (i : Instruction) : ∀ event ∈ announce pc i, event.Quiet := by
    cases i <;> simp [announce, Event.Quiet]
  generalize ended : c.cycle = done
  cases ended ▸ c.cycles with
  | waits | takes | unknown => simp
  | fails i | executes i => exact announced _ i

theorem Keypad.quiet_change (keypad : Keypad) (key : Nat) (down : Bool) :
    ∀ event ∈ (keypad.change key down).events, event.Quiet := by
  unfold change
  split <;> simp [Event.Quiet]

theorem Processor.quiet_offerKey (p : Processor) (key : UInt8) :
    ∀ event ∈ (p.offerKey key).events, event.Quiet := by
  unfold offerKey
  split <;> simp [Event.Quiet]

def Operation.listener? : Operation → Option String
  | listen name => some name
  | _ => none

namespace Machine

/-- The faults since the last reset or load of a run; `past` are those from before it. -/
def recent (m : Machine) (past : List Fault) : List Operation → List Fault
  | [] => past
  | op :: rest => (m.apply op).state.recent
      (if op.KeepsProgram then past ++ (m.fault? op).toList else []) rest

/-- The faults of a run that somebody hears of, each with the listener installed last; `listener` is
the one from before the run. -/
def told (m : Machine) (listener : Option String) : List Operation → List (String × Fault)
  | [] => []
  | op :: rest => ((m.fault? op).bind fun fault => listener.map (·, fault)).toList ++
      (m.apply op).state.told (op.listener?.or listener) rest

variable (m : Machine)

theorem listener_apply (op : Operation) :
    (m.apply op).state.listener = op.listener?.or m.listener := by
  rw [state_apply]
  cases op <;> rfl

theorem faults_apply (op : Operation) : (m.apply op).state.faults =
    if op.KeepsProgram then (m.fault? op).elim m.faults m.faults.record else {} := by
  rw [state_apply]
  cases op <;> rfl

theorem quiet_press (key : Nat) : ∀ event ∈ (m.press key).events, event.Quiet := by
  have changed := m.console.keypad.quiet_change key true
  simp only [press]
  split
  · exact List.forall_mem_append.mpr ⟨changed, Processor.quiet_offerKey _ _⟩
  · exact changed

theorem quiet_load (program : List UInt8) : ∀ event ∈ (m.load program).events, event.Quiet := by
  rw [load_eq]
  split <;> simp [Event.Quiet]

def report (fault : Fault) : List Event :=
  .faulted fault :: (m.listener.map (.delivered · fault)).toList

/-- All that a machine tells of a fault comes last, and the rest tells of none. -/
theorem events_apply (op : Operation) : ∃ quiet, (∀ event ∈ quiet, Event.Quiet event) ∧
    (m.apply op).events = quiet ++ (m.fault? op).elim [] m.report := by
  cases op with
  | step => exact ⟨m.console.cycle.events, m.console.quiet_cycle, congrArg Outcome.events m.step_eq⟩
  | load program => exact ⟨_, m.quiet_load program, (List.append_nil _).symm⟩
  | press key => exact ⟨_, m.quiet_press key, (List.append_nil _).symm⟩
  | release key => exact ⟨_, m.console.keypad.quiet_change key false, (List.append_nil _).symm⟩
  | reset => exact ⟨[.resetting], by simp [Event.Quiet], rfl⟩
  | tick | reseed | start | stop | consumeRedraw | listen => exact ⟨[], by simp, rfl⟩

theorem faults_events (op : Operation) :
    Event.faults (m.apply op).events = (m.fault? op).toList := by
  obtain ⟨quiet, silent, same⟩ := m.events_apply op
  rw [same, Event.faults_append_quiet silent]
  cases m.fault? op with
  | none => rfl
  | some fault => cases heard : m.listener <;> simp [report, heard, Event.faults]

theorem deliveries_events (op : Operation) : Event.deliveries (m.apply op).events =
    ((m.fault? op).bind fun fault => m.listener.map (·, fault)).toList := by
  obtain ⟨quiet, silent, same⟩ := m.events_apply op
  rw [same, Event.deliveries_append_quiet silent]
  cases m.fault? op with
  | none => rfl
  | some fault => cases heard : m.listener <;> simp [report, heard, Event.deliveries]

theorem faults_run (ops : List Operation) : Event.faults (m.run ops).events = m.raised ops := by
  induction ops generalizing m with
  | nil => rfl
  | cons op rest ih =>
    calc Event.faults ((m.apply op).events ++ ((m.apply op).state.run rest).events)
        = Event.faults (m.apply op).events ++
            Event.faults ((m.apply op).state.run rest).events := List.filterMap_append
      _ = (m.fault? op).toList ++ (m.apply op).state.raised rest := by rw [faults_events, ih]

theorem deliveries_run (ops : List Operation) :
    Event.deliveries (m.run ops).events = m.told m.listener ops := by
  induction ops generalizing m with
  | nil => rfl
  | cons op rest ih =>
    have later := ih (m.apply op).state
    rw [listener_apply] at later
    calc Event.deliveries ((m.apply op).events ++ ((m.apply op).state.run rest).events)
        = Event.deliveries (m.apply op).events ++
            Event.deliveries ((m.apply op).state.run rest).events := List.filterMap_append
      _ = m.told m.listener (op :: rest) := by rw [deliveries_events, later, told]

variable {m}

theorem tallies_run {past : List Fault} (tallies : m.faults.Tallies past) (ops : List Operation) :
    (m.run ops).state.faults.Tallies (m.recent past ops) := by
  -- Any past will do: a restart begins a new one.
  induction ops generalizing m past with
  | nil => exact tallies
  | cons op rest ih =>
    apply ih
    rw [faults_apply]
    split
    · exact tallies.recordAll (m.fault? op)
    · exact FaultLog.tallies_nil

/-- The reports of every history agree. The tally has the faults since the last reset or load, each
kind stopped at the greatest count; each fault went to the listener of its time and nobody else;
and the warnings in the log are the messages of all faults, in order. -/
theorem fault_reports_agree (config : Config) (own : Key) (ops : List Operation) :
    let new := ofConfig config own
    let log := (new.run ops).state.faults
    let events := (new.run ops).events
    let recent := new.recent [] ops
    ((∀ kind, (log.count kind).toNat =
        min (recent.countP fun fault => fault.kind = kind) (2 ^ 32 - 1)) ∧
      log.total.toNat = min recent.length (2 ^ 32 - 1) ∧
      log.last = recent.getLast? ∧
      (log.isEmpty = true ↔ recent = []) ∧ (log.total = 0 ↔ recent = [])) ∧
    Event.faults events = new.raised ops ∧
    Event.deliveries events = new.told none ops ∧
    Event.messages .warn events = (new.raised ops).map Fault.message := by
  intro new log events recent
  have tallies : log.Tallies recent := tallies_run FaultLog.tallies_nil ops
  have faults : Event.faults events = new.raised ops := new.faults_run ops
  refine ⟨⟨tallies.count, tallies.toNat_total, tallies.last, tallies.isEmpty_iff,
    tallies.total_eq_zero_iff⟩, faults, new.deliveries_run ops, ?_⟩
  rw [Event.messages_warn, faults]

end Machine

end Chip8
