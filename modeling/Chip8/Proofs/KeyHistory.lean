import Chip8.Proofs.Commuting
import Mathlib.Data.List.DropRight

/-! Which keys are held, told from the history alone. The latest operation that settles a key decides: a
press holds it, a release, a reset or a load does not, and numbers outside the keypad reach nothing.
Fresh presses and lifts of a key alternate, so since a reset there is one more of the former exactly
while the key is held. -/
namespace Chip8

namespace Keypad

theorem isHeld_initial (key : Nat) : initial.isHeld key = false := by
  unfold isHeld initial
  rw [Vector.getElem?_replicate]
  split <;> rfl

theorem isHeld_of_outside (keypad : Keypad) {key : Nat} (outside : ¬ key < 16) :
    keypad.isHeld key = false :=
  Bool.eq_false_iff.mpr fun held => outside (lt_of_isHeld held)

/-- What can be done to a keypad. -/
inductive Call where
  | change (key : Nat) (down : Bool)
  | reset
deriving DecidableEq, Repr

def serve (keypad : Keypad) : Call → Keypad × Bool
  | .change key down => ((keypad.change key down).state, (keypad.change key down).answer)
  | .reset => (initial, false)

/-- The keypad behind a series of calls. -/
def after (keypad : Keypad) (calls : List Call) : Keypad :=
  calls.foldl (fun met call => (met.serve call).1) keypad

/-- The calls of a series, each with the keypad that it meets. -/
def meetings (keypad : Keypad) : List Call → List (Keypad × Call)
  | [] => []
  | call :: rest => (keypad, call) :: (keypad.serve call).1.meetings rest

/-- A call about the key with the answer that it is down now and was up before. -/
def isFreshPress (key : Nat) : Keypad × Call → Bool
  | (met, .change other down) => other == key && (met.serve (.change other down)).2
  | (_, .reset) => false

/-- A call that lets the key go and finds it held. -/
def isLift (key : Nat) : Keypad × Call → Bool
  | (met, .change other down) => other == key && !down && met.isHeld key
  | (_, .reset) => false

/-- The calls since the last reset. -/
def sinceReset (meetings : List (Keypad × Call)) : List (Keypad × Call) :=
  meetings.rtakeWhile fun meeting => meeting.2 != .reset

theorem countP_concat (counted : Keypad × Call → Bool) (past : List (Keypad × Call))
    (last : Keypad × Call) :
    (past ++ [last]).countP counted = past.countP counted + (counted last).toNat := by
  rw [List.countP_append, List.countP_singleton]
  cases counted last <;> rfl

variable (keypad : Keypad) {key : Nat}

theorem after_concat (calls : List Call) (call : Call) :
    keypad.after (calls ++ [call]) = ((keypad.after calls).serve call).1 := by
  rw [after, List.foldl_concat, after]

theorem meetings_concat (calls : List Call) (call : Call) :
    keypad.meetings (calls ++ [call]) = keypad.meetings calls ++ [(keypad.after calls, call)] := by
  induction calls generalizing keypad with
  | nil => rfl
  | cons first rest ih =>
    rw [List.cons_append, meetings, meetings, ih, List.cons_append]
    rfl

/-- A change of a key adds a fresh press, adds a lift or leaves the key as it is. -/
theorem balance_change (key other : Nat) (down : Bool) :
    (isFreshPress key (keypad, .change other down)).toNat + (keypad.isHeld key).toNat =
      (isLift key (keypad, .change other down)).toNat +
        ((keypad.change other down).state.isHeld key).toNat := by
  simp only [isFreshPress, isLift, serve, answer_change, isHeld_change]
  by_cases same : other = key
  · subst same
    by_cases inside : other < 16
    · cases down <;> cases keypad.isHeld other <;> simp [inside]
    · simp [inside, keypad.isHeld_of_outside inside]
  · simp [same, beq_eq_false_iff_ne.mpr same]

/-- Since the last reset, or from the start, the fresh presses of a key outnumber its lifts by one exactly
while it is held. -/
theorem balance_sinceReset (key : Nat) (calls : List Call) :
    (sinceReset (initial.meetings calls)).countP (isFreshPress key) =
      (sinceReset (initial.meetings calls)).countP (isLift key) +
        ((initial.after calls).isHeld key).toNat := by
  induction calls using List.reverseRecOn with
  | nil =>
    rw [after, List.foldl_nil, isHeld_initial]
    rfl
  | append_singleton calls call ih =>
    rw [meetings_concat, after_concat]
    cases call with
    | reset =>
      rw [sinceReset, List.rtakeWhile_concat, serve, isHeld_initial]
      rfl
    | change other down =>
      have balance := (initial.after calls).balance_change key other down
      rw [sinceReset, List.rtakeWhile_concat, if_pos (by rfl), ← sinceReset, countP_concat,
        countP_concat, ih]
      simp only [serve]
      omega

end Keypad

/-- Whether an operation decides if the key is held. -/
def Operation.settles (key : Nat) : Operation → Bool
  | press other | release other => other == key
  | load _ | reset => true
  | _ => false

namespace Machine
variable (m : Machine)

theorem isPressed_apply (op : Operation) (key : Nat) : (m.apply op).state.isPressed key =
    if op.settles key then decide (op = .press key ∧ key < 16) else m.isPressed key := by
  rw [state_apply]
  cases op with
  | load | reset => exact Keypad.isHeld_initial key
  | step =>
    rw [← state_step, isPressed, keypad_step]
    rfl
  | press other | release other =>
    rw [isPressed, Machine.after, Keypad.isHeld_change]
    by_cases same : other = key
    · subst same
      by_cases inside : other < 16
      · simp [Operation.settles, inside]
      · simp [Operation.settles, inside, m.console.keypad.isHeld_of_outside inside]
    · simp [Operation.settles, same]
      rfl
  | tick | reseed | start | stop | consumeRedraw | listen => rfl

/-- The latest operation that settles the key decides; without one the key is as before. -/
theorem isPressed_run (ops : List Operation) (key : Nat) : (m.run ops).state.isPressed key =
    (ops.reverse.find? (·.settles key)).elim (m.isPressed key)
      fun op => decide (op = .press key ∧ key < 16) := by
  induction ops using List.reverseRecOn with
  | nil => rfl
  | append_singleton ops op ih =>
    have last : (m.run (ops ++ [op])).state = ((m.run ops).state.apply op).state :=
      m.state_run_append ops [op]
    rw [last, isPressed_apply, List.reverse_append, List.reverse_singleton, List.singleton_append,
      List.find?_cons, ih]
    cases op.settles key <;> rfl

theorem isPressed_history (config : Config) (own : Key) (ops : List Operation) (key : Nat) :
    ((ofConfig config own).run ops).state.isPressed key = true ↔
      key < 16 ∧ ops.reverse.find? (·.settles key) = some (.press key) := by
  have up : (ofConfig config own).isPressed key = false := Keypad.isHeld_initial key
  rw [isPressed_run, up]
  cases ops.reverse.find? (·.settles key) with
  | none => simp
  | some op => simp [and_comm]

/-- The machine's whole state is meant: no number outside the keypad is taken for one of its keys. -/
theorem apply_outside {key : Nat} (outside : 16 ≤ key) :
    (m.apply (.press key)).state = m ∧ (m.apply (.release key)).state = m := by
  have notInside : ¬ key < 16 := Nat.not_lt.mpr outside
  constructor
  · apply state_press_stale
    simp [isFresh, notInside]
  · exact state_release_up (m.console.keypad.isHeld_of_outside notInside)

/-- A key is held if and only if the keypad has it and the latest operation that settles it is a press of
it. Other operations leave it as it is, and numbers from sixteen on change nothing of a machine. A keypad
answers a change with yes if and only if a key of its own goes down that was up; since the last reset
those answers outnumber the lifts of the key by one while it is held and are as many while it is not. -/
theorem keys_follow_history :
    (∀ config own ops key, ((ofConfig config own).run ops).state.isPressed key = true ↔
      key < 16 ∧ ops.reverse.find? (·.settles key) = some (.press key)) ∧
    (∀ (m : Machine) (op : Operation) (key : Nat), op.settles key = false →
      (m.apply op).state.isPressed key = m.isPressed key) ∧
    (∀ (m : Machine) (key : Nat), 16 ≤ key →
      (m.apply (.press key)).state = m ∧ (m.apply (.release key)).state = m) ∧
    (∀ (calls : List Keypad.Call) (key : Nat) (down : Bool),
      let met := Keypad.initial.after calls
      (met.serve (.change key down)).2 = true ↔ down = true ∧ key < 16 ∧ met.isHeld key = false) ∧
    ∀ (calls : List Keypad.Call) (key : Nat),
      let since := Keypad.sinceReset (Keypad.initial.meetings calls)
      since.countP (Keypad.isFreshPress key) =
        since.countP (Keypad.isLift key) + ((Keypad.initial.after calls).isHeld key).toNat := by
  refine ⟨isPressed_history, ?_, fun m _ => m.apply_outside, ?_, ?_⟩
  · intro m op key other
    rw [isPressed_apply, other, if_neg Bool.false_ne_true]
  · intro calls key down met
    simp only [Keypad.serve, Keypad.answer_change, Bool.and_eq_true, decide_eq_true_eq,
      Bool.not_eq_true']
  · intro calls key
    exact Keypad.balance_sinceReset key calls

/-- During a wait for a key, 261 is not taken for 5, and letting 4 go does not let 5 go. -/
theorem large_number_is_no_key :
    let m := ((booted [0xF3, 0x0A]).run [.press 5, .step]).state
    (m.apply (.press 261)).state = m ∧
      (m.apply (.release 4)).state.isPressed 5 = m.isPressed 5 :=
  ⟨(keys_follow_history.2.2.1 _ 261 (by decide)).1,
    keys_follow_history.2.1 _ (.release 4) 5 (by decide)⟩

end Machine

end Chip8
