import Chip8.Keyboard
import Mathlib.Data.List.FinRange

/-! Key holds against the history of a host's calls. A poll reports a key if and only if the latest note
about the key, a press of it or a report with it, is a press whose time has run out. So reports of a
key alternate with presses, and each press without a repeat is reported once, by the first poll that
is not too early. -/
namespace Chip8.KeyHolds

/-- What a host does with the holds, and when. -/
inductive Call where
  | press (key now : Nat)
  | poll (now : Nat)
deriving DecidableEq, Repr

/-- A call that was made, with its answer. -/
inductive Note where
  | pressed (key now : Nat)
  | reported (now : Nat) (keys : List Nat)
deriving DecidableEq, Repr

namespace Call

def time : Call → Nat
  | press _ now | poll now => now

/-- Whether a call may say something about the key. -/
def mayConcern (key : Nat) : Call → Bool
  | press other _ => other == key
  | poll _ => true

end Call

namespace Note

def call : Note → Call
  | pressed key now => .press key now
  | reported now _ => .poll now

/-- A press concerns its key, and a report the keys that it names. -/
def concerns (key : Nat) : Note → Bool
  | pressed other _ => other == key
  | reported _ keys => keys.contains key

@[simp] theorem concerns_pressed {key other now : Nat} :
    (pressed other now).concerns key = true ↔ other = key :=
  beq_iff_eq

@[simp] theorem concerns_reported {key now : Nat} {keys : List Nat} :
    (reported now keys).concerns key = true ↔ key ∈ keys :=
  List.contains_iff_mem

/-- The time of a report and whether it names the key. -/
def verdict? (key : Nat) : Note → Option (Nat × Bool)
  | pressed _ _ => none
  | reported now keys => some (now, keys.contains key)

end Note

def serve (holds : KeyHolds) : Call → KeyHolds × Note
  | .press key now => (holds.press key now, .pressed key now)
  | .poll now => ((holds.expire now).1, .reported now (holds.expire now).2)

/-- The notes of a series of calls, first one first. -/
def notes (holds : KeyHolds) : List Call → List Note
  | [] => []
  | call :: rest => (holds.serve call).2 :: (holds.serve call).1.notes rest

/-- The latest note about a key. -/
def latest? (past : List Note) (key : Nat) : Option Note :=
  past.reverse.find? (·.concerns key)

/-- The time of the press that is held against a key. -/
def start? (holds : KeyHolds) (key : Nat) : Option Nat :=
  holds.since[key]?.join

section Calls
variable (holds : KeyHolds) (key now : Nat)

theorem start?_initial (timeout : Nat) : (initial timeout).start? key = none := by
  unfold start? initial
  rw [Vector.getElem?_replicate]
  split <;> rfl

theorem start?_of_outside (outside : 16 ≤ key) : holds.start? key = none := by
  simp [start?, outside]

theorem start?_place (place : Fin 16) : holds.start? place.val = holds.since.get place := by
  unfold start?
  rw [Vector.getElem?_eq_getElem place.isLt]
  rfl

theorem start?_press (other : Nat) : (holds.press other now).start? key =
    if other = key ∧ key < 16 then some now else holds.start? key := by
  unfold start? press
  rw [Vector.getElem?_setIfInBounds]
  by_cases same : other = key
  · subst same
    by_cases inside : other < 16 <;> simp [inside]
  · simp [same]

theorem start?_expire : (holds.expire now).1.start? key =
    if isOver holds.timeout now (holds.start? key) then none else holds.start? key := by
  unfold start? expire
  rw [Vector.getElem?_map]
  cases holds.since[key]? with
  | none => rfl
  | some held => rfl

theorem mem_expire : key ∈ (holds.expire now).2 ↔
    isOver holds.timeout now (holds.start? key) = true := by
  unfold expire
  simp only [List.mem_filterMap, List.mem_finRange, true_and, Option.ite_none_right_eq_some,
    Option.some.injEq]
  constructor
  · rintro ⟨place, due, rfl⟩
    rwa [start?_place]
  · intro due
    by_cases inside : key < 16
    · exact ⟨⟨key, inside⟩, by rwa [← start?_place], rfl⟩
    · rw [start?_of_outside _ _ (Nat.le_of_not_lt inside)] at due
      contradiction

theorem pairwise_expire : (holds.expire now).2.Pairwise (· < ·) := by
  unfold expire
  rw [List.pairwise_filterMap]
  apply (List.pairwise_lt_finRange 16).imp
  intro low high ordered a fromLow b fromHigh
  obtain ⟨-, sameLow⟩ := Option.ite_none_right_eq_some.mp fromLow
  obtain ⟨-, sameHigh⟩ := Option.ite_none_right_eq_some.mp fromHigh
  cases sameLow
  cases sameHigh
  exact ordered

end Calls

section History
variable {past before after : List Note} {note : Note} {key start now : Nat}

theorem latest?_append (before after : List Note) (key : Nat) :
    latest? (before ++ after) key = (latest? after key).or (latest? before key) := by
  rw [latest?, latest?, latest?, List.reverse_append, List.find?_append]

theorem latest?_singleton (note : Note) (key : Nat) :
    latest? [note] key = if note.concerns key then some note else none := by
  rw [latest?, List.reverse_singleton, List.find?_singleton]

theorem mem_of_latest? (found : latest? past key = some note) :
    note ∈ past ∧ note.concerns key = true :=
  ⟨List.mem_reverse.mp (List.mem_of_find?_eq_some found), List.find?_some found⟩

theorem latest?_eq_none : latest? past key = none ↔ ∀ note ∈ past, note.concerns key = false := by
  simp only [latest?, List.find?_eq_none, List.mem_reverse, Bool.not_eq_true]

/-- A note about the key hides all that was noted before it. -/
theorem latest?_behind (concerned : note.concerns key = true) :
    latest? (before ++ note :: after) key = (latest? after key).or (some note) := by
  rw [List.append_cons, latest?_append, latest?_append, latest?_singleton, if_pos concerned,
    Option.some_or]

/-- Behind a press of the key, and as long as it is not pressed again. -/
theorem latest?_press (unrepeated : ∀ again, .pressed key again ∉ after) {again : Nat} :
    latest? (before ++ .pressed key start :: after) key = some (.pressed key again) ↔
      again = start ∧ latest? after key = none := by
  have never : latest? after key ≠ some (.pressed key again) :=
    fun found => unrepeated again (mem_of_latest? found).1
  rw [latest?_behind (Note.concerns_pressed.mpr rfl), Option.or_eq_some_iff]
  simp [never, and_comm, eq_comm]

end History

/-- The press that is held against a key is the latest note about it, and there is one if and only if that
note is a press. -/
structure Tracks (holds : KeyHolds) (past : List Note) : Prop where
  starts : ∀ key < 16, ∀ start,
    holds.start? key = some start ↔ latest? past key = some (.pressed key start)

variable {holds : KeyHolds} {past : List Note}

theorem tracks_initial (timeout : Nat) : (initial timeout).Tracks [] where
  starts key inside start := by simp [start?_initial, latest?]

theorem Tracks.serve (tracks : holds.Tracks past) (call : Call) :
    (holds.serve call).1.Tracks (past ++ [(holds.serve call).2]) where
  starts key inside start := by
    rw [latest?_append, latest?_singleton]
    have tracked := tracks.starts key inside start
    cases call with
    | press other now =>
      simp only [KeyHolds.serve, Note.concerns, start?_press, beq_iff_eq]
      by_cases same : other = key
      · subst same
        simp [inside]
      · simpa [same] using tracked
    | poll now =>
      simp only [KeyHolds.serve, Note.concerns, start?_expire, List.contains_iff_mem, mem_expire]
      by_cases due : isOver holds.timeout now (holds.start? key) = true
      · simp [due]
      · simpa [due] using tracked

theorem timeout_serve (holds : KeyHolds) (call : Call) :
    (holds.serve call).1.timeout = holds.timeout := by
  cases call <;> rfl

/-- Every report is the answer of holds that track all notes before it. -/
theorem reported_of_notes {calls : List Call} {before past later : List Note} {now : Nat}
    {keys : List Nat} (tracks : holds.Tracks before)
    (split : holds.notes calls = past ++ .reported now keys :: later) :
    ∃ met : KeyHolds, met.timeout = holds.timeout ∧ met.Tracks (before ++ past) ∧
      keys = (met.expire now).2 := by
  induction calls generalizing holds before past with
  | nil => simp [notes] at split
  | cons call rest ih =>
    cases past with
    | nil =>
      obtain ⟨first, -⟩ := List.cons.inj split
      cases call with
      | press => contradiction
      | poll time =>
        obtain ⟨rfl, rfl⟩ := Note.reported.inj first
        exact ⟨holds, rfl, by simpa using tracks, rfl⟩
    | cons note past =>
      obtain ⟨first, later⟩ := List.cons.inj split
      obtain ⟨met, same, tracked, answered⟩ := ih (tracks.serve call) later
      rw [first, List.append_assoc] at tracked
      exact ⟨met, same.trans (timeout_serve holds call), tracked, answered⟩

theorem map_call_notes (holds : KeyHolds) (calls : List Call) :
    (holds.notes calls).map Note.call = calls := by
  induction calls generalizing holds with
  | nil => rfl
  | cons call rest ih =>
    have first : (holds.serve call).2.call = call := by cases call <;> rfl
    rw [notes, List.map_cons, first, ih]

/-- Every report names, lowest first, the keys of the keypad about which the latest note is a press whose
time has run out. -/
def Timely (timeout : Nat) (notes : List Note) : Prop :=
  ∀ past now keys later, notes = past ++ .reported now keys :: later →
    keys.Pairwise (· < ·) ∧ ∀ key, key ∈ keys ↔
      key < 16 ∧ ∃ start, latest? past key = some (.pressed key start) ∧ start + timeout ≤ now

def Ordered (notes : List Note) : Prop :=
  notes.Pairwise fun earlier later => earlier.call.time ≤ later.call.time

section Timely
variable {timeout : Nat} {calls : List Call} {notes before between later : List Note}
  {key start now : Nat} {keys others : List Nat}

theorem ordered_notes (holds : KeyHolds)
    (ordered : calls.Pairwise fun earlier later => earlier.time ≤ later.time) :
    Ordered (holds.notes calls) := by
  rw [← map_call_notes holds calls, List.pairwise_map] at ordered
  exact ordered

/-- What was noted about a key before is not later. -/
theorem Ordered.latest_le (ordered : Ordered (before ++ .reported now keys :: later))
    (found : latest? before key = some (.pressed key start)) : start ≤ now :=
  (List.pairwise_append.mp ordered).2.2 _ (mem_of_latest? found).1 _ List.mem_cons_self

theorem timely_notes (ordered : calls.Pairwise fun earlier later => earlier.time ≤ later.time) :
    Timely timeout ((initial timeout).notes calls) := by
  intro past now keys later split
  obtain ⟨met, same, tracked, rfl⟩ := reported_of_notes (tracks_initial timeout) split
  have inOrder := split ▸ ordered_notes (initial timeout) ordered
  have same : met.timeout = timeout := same
  rw [List.nil_append] at tracked
  refine ⟨met.pairwise_expire now, fun key => ?_⟩
  rw [mem_expire, same]
  constructor
  · intro due
    by_cases inside : key < 16
    · cases held : met.start? key with
      | none =>
        rw [held] at due
        contradiction
      | some start =>
        have found := (tracked.starts key inside start).mp held
        have sooner := inOrder.latest_le found
        rw [held] at due
        simp only [isOver, decide_eq_true_eq] at due
        exact ⟨inside, start, found, by omega⟩
    · rw [start?_of_outside _ _ (Nat.le_of_not_lt inside)] at due
      contradiction
  · rintro ⟨inside, start, found, due⟩
    rw [(tracked.starts key inside start).mpr found]
    simp only [isOver, decide_eq_true_eq]
    omega

/-- What a report names, looked up behind a note that was made before. -/
theorem Timely.mem_behind (timely : Timely timeout notes) {note : Note}
    (split : notes = before ++ note :: (between ++ .reported now keys :: later)) :
    key ∈ keys ↔ key < 16 ∧ ∃ start,
      latest? (before ++ note :: between) key = some (.pressed key start) ∧ start + timeout ≤ now := by
  have regrouped : notes = (before ++ note :: between) ++ .reported now keys :: later := by
    rw [split, List.append_assoc, List.cons_append]
  exact (timely _ _ _ _ regrouped).2 key

/-- Between two reports of a key there is a press of it. -/
theorem Timely.pressed_between (timely : Timely timeout notes) {first second : Nat}
    (split : notes = before ++ .reported first keys :: (between ++ .reported second others :: later))
    (reported : key ∈ keys) (again : key ∈ others) : ∃ start, .pressed key start ∈ between := by
  obtain ⟨-, start, found, -⟩ := (timely.mem_behind split).mp again
  rw [latest?_behind (Note.concerns_reported.mpr reported)] at found
  rcases Option.or_eq_some_iff.mp found with latest | ⟨-, itself⟩
  · exact ⟨start, (mem_of_latest? latest).1⟩
  · cases itself

/-- Behind a press that is not repeated, a report names the key if the time has run out and no earlier
report names it. -/
theorem Timely.mem_of_unrepeated (timely : Timely timeout notes) (inside : key < 16)
    (split : notes = before ++ .pressed key start :: (between ++ .reported now keys :: later))
    (unrepeated : ∀ again, .pressed key again ∉ between) :
    key ∈ keys ↔ latest? between key = none ∧ start + timeout ≤ now := by
  rw [timely.mem_behind split]
  constructor
  · rintro ⟨-, again, found, due⟩
    obtain ⟨rfl, none⟩ := (latest?_press unrepeated).mp found
    exact ⟨none, due⟩
  · rintro ⟨none, due⟩
    exact ⟨inside, start, (latest?_press unrepeated).mpr ⟨rfl, none⟩, due⟩

/-- A press without a repeat is reported by the first poll that is not too early, and by no other. -/
theorem Timely.reported_once (timely : Timely timeout notes) (inside : key < 16)
    (split : notes = before ++ .pressed key start :: (between ++ .reported now keys :: later))
    (unrepeated : ∀ again, .pressed key again ∉ between) :
    key ∈ keys ↔ start + timeout ≤ now ∧
      ∀ earlier others, .reported earlier others ∈ between → earlier < start + timeout := by
  have sooner {first second : List Note} {earlier : Nat} {others : List Nat}
      (part : between = first ++ .reported earlier others :: second) :
      key ∈ others ↔ latest? first key = none ∧ start + timeout ≤ earlier := by
    have whole : notes = before ++ .pressed key start ::
        (first ++ .reported earlier others :: (second ++ .reported now keys :: later)) := by
      rw [split, part, List.append_assoc, List.cons_append]
    apply timely.mem_of_unrepeated inside whole
    intro again member
    exact unrepeated again (part ▸ List.mem_append_left _ member)
  rw [timely.mem_of_unrepeated inside split unrepeated, latest?_eq_none]
  constructor
  · rintro ⟨silent, due⟩
    refine ⟨due, ?_⟩
    intro earlier others member
    obtain ⟨first, second, part⟩ := List.append_of_mem member
    have silentFirst : latest? first key = none := latest?_eq_none.mpr fun note within =>
      silent note (part ▸ List.mem_append_left _ within)
    apply Nat.lt_of_not_le
    intro late
    have named : key ∈ others := (sooner part).mpr ⟨silentFirst, late⟩
    rw [← Note.concerns_reported, silent _ member] at named
    contradiction
  · rintro ⟨due, early⟩
    refine ⟨?_, due⟩
    intro note member
    rw [← Bool.not_eq_true]
    intro concerned
    cases note with
    | pressed other again =>
      obtain rfl := Note.concerns_pressed.mp concerned
      exact unrepeated again member
    | reported earlier others =>
      obtain ⟨first, second, part⟩ := List.append_of_mem member
      have late := ((sooner part).mp (Note.concerns_reported.mp concerned)).2
      have soon := early earlier others member
      omega

/-- Every press puts the next report of its key off, however often the key was pressed before. -/
theorem Timely.not_reported_early (timely : Timely timeout notes) (ordered : Ordered notes)
    (split : notes = before ++ .pressed key start :: (between ++ .reported now keys :: later))
    (early : now < start + timeout) : key ∉ keys := by
  intro reported
  obtain ⟨-, again, found, due⟩ := (timely.mem_behind split).mp reported
  rw [latest?_behind (Note.concerns_pressed.mpr rfl)] at found
  have following : start ≤ again := by
    rcases Option.or_eq_some_iff.mp found with latest | ⟨-, itself⟩
    · have behind := (List.pairwise_cons.mp (List.pairwise_append.mp (split ▸ ordered)).2.1).1
      exact behind _ (List.mem_append_left _ (mem_of_latest? latest).1)
    · obtain ⟨-, rfl⟩ := Note.pressed.inj (Option.some.inj itself)
      exact Nat.le_refl _
  omega

end Timely

/-! ### Calls about other keys -/

section Others
variable {holds other : KeyHolds} {key : Nat}

/-- Two holds that differ in other keys only. -/
structure AlikeFor (key : Nat) (holds other : KeyHolds) : Prop where
  timeout : other.timeout = holds.timeout
  start : other.start? key = holds.start? key

theorem AlikeFor.serve (alike : AlikeFor key holds other) (call : Call) :
    AlikeFor key (holds.serve call).1 (other.serve call).1 where
  timeout := by rw [timeout_serve, timeout_serve, alike.timeout]
  start := by
    cases call with
    | press => simp only [KeyHolds.serve, start?_press, alike.start]
    | poll => simp only [KeyHolds.serve, start?_expire, alike.start, alike.timeout]

theorem AlikeFor.verdict? (alike : AlikeFor key holds other) (call : Call) :
    (other.serve call).2.verdict? key = (holds.serve call).2.verdict? key := by
  cases call with
  | press => rfl
  | poll now =>
    have named (met : KeyHolds) :
        (met.expire now).2.contains key = isOver met.timeout now (met.start? key) := by
      rw [Bool.eq_iff_iff, List.contains_iff_mem, mem_expire]
    simp only [KeyHolds.serve, Note.verdict?, named, alike.start, alike.timeout]

theorem AlikeFor.of_unconcerned {call : Call} (alike : AlikeFor key holds other)
    (unconcerned : call.mayConcern key = false) : AlikeFor key (holds.serve call).1 other where
  timeout := by rw [timeout_serve, alike.timeout]
  start := by
    cases call with
    | press another now =>
      have apart : another ≠ key := by simpa [Call.mayConcern] using unconcerned
      simp only [KeyHolds.serve, start?_press, apart, false_and, if_false, alike.start]
    | poll => contradiction

theorem AlikeFor.verdicts_filter (alike : AlikeFor key holds other) (calls : List Call) :
    (other.notes (calls.filter (·.mayConcern key))).filterMap (·.verdict? key) =
      (holds.notes calls).filterMap (·.verdict? key) := by
  induction calls generalizing holds other with
  | nil => rfl
  | cons call rest ih =>
    cases concerned : call.mayConcern key with
    | true =>
      rw [List.filter_cons_of_pos concerned, notes, notes, List.filterMap_cons,
        List.filterMap_cons, alike.verdict? call, ih (alike.serve call)]
    | false =>
      have silent : (holds.serve call).2.verdict? key = none := by
        cases call with
        | press => rfl
        | poll => contradiction
      rw [List.filter_cons_of_neg (by simp [concerned]), notes, List.filterMap_cons, silent,
        ih (alike.of_unconcerned concerned)]

end Others

/-- A host calls in any order, at times that never go back. Every report then names exactly the keys
whose latest press has not been reported and has lasted the timeout. Hence two reports of a key have a
press of it between them; a press that is not repeated is named by the first report that is not too
early and by no other; a repeat puts the report off; and presses of other numbers, whether the
keypad has them or not, change nothing for a key. -/
theorem holds_end_once_on_time (timeout : Nat) (calls : List Call)
    (ordered : calls.Pairwise fun earlier later => earlier.time ≤ later.time) :
    let notes := (initial timeout).notes calls
    notes.map Note.call = calls ∧
    Timely timeout notes ∧
    (∀ before first keys between second others later key,
      notes = before ++ .reported first keys :: (between ++ .reported second others :: later) →
      key ∈ keys → key ∈ others → ∃ start, .pressed key start ∈ between) ∧
    (∀ before key start between now keys later, key < 16 →
      notes = before ++ .pressed key start :: (between ++ .reported now keys :: later) →
      (∀ again, .pressed key again ∉ between) →
      (key ∈ keys ↔ start + timeout ≤ now ∧
        ∀ earlier others, .reported earlier others ∈ between → earlier < start + timeout)) ∧
    (∀ before key start between now keys later,
      notes = before ++ .pressed key start :: (between ++ .reported now keys :: later) →
      now < start + timeout → key ∉ keys) ∧
    ∀ key, notes.filterMap (·.verdict? key) =
      ((initial timeout).notes (calls.filter (·.mayConcern key))).filterMap (·.verdict? key) := by
  intro notes
  have timely : Timely timeout notes := timely_notes ordered
  refine ⟨map_call_notes _ calls, timely, ?_, ?_, ?_, ?_⟩
  · intro before first keys between second others later key split reported again
    exact timely.pressed_between split reported again
  · intro before key start between now keys later inside split unrepeated
    exact timely.reported_once inside split unrepeated
  · intro before key start between now keys later split early
    exact timely.not_reported_early (ordered_notes _ ordered) split early
  · intro key
    have itself : AlikeFor key (initial timeout) (initial timeout) := ⟨rfl, rfl⟩
    exact (itself.verdicts_filter calls).symm

/-- A repeat at 60 puts the report off from 100 to 160, whatever other number is pressed in between. -/
theorem repeat_puts_report_off :
    let repeated := (((initial 100).press 5 0).press 21 40).press 5 60
    5 ∉ (repeated.expire 120).2 ∧ 5 ∈ (repeated.expire 160).2 := by
  intro repeated
  constructor
  · exact (holds_end_once_on_time 100 [.press 5 0, .press 21 40, .press 5 60, .poll 120]
      (by decide)).2.2.2.2.1 [.pressed 5 0, .pressed 21 40] 5 60 [] 120 _ [] rfl (by decide)
  · exact ((holds_end_once_on_time 100 [.press 5 0, .press 21 40, .press 5 60, .poll 160]
      (by decide)).2.2.2.1 [.pressed 5 0, .pressed 21 40] 5 60 [] 160 _ [] (by decide) rfl
      (by simp)).mpr ⟨by decide, by simp⟩

end Chip8.KeyHolds
