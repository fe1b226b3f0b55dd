import Chip8.Proofs.Trace

/-! Two runs side by side. Where a relation between two machines is kept by silent operations of
either one and by every other operation that both do, it is kept by runs that agree on the latter,
wherever the former are put in. -/
namespace Chip8.Machine

/-- A relation of two machines that silent operations on either side keep, and other ones done on both
sides, as long as the first machine executes no banned instruction. Related machines execute the
same instruction and raise the same fault. -/
structure Bisimilar (R : Machine → Machine → Prop) (allowed : Operation → Prop)
    (visible : Operation → Bool) (banned : Instruction → Bool) : Prop where
  steps : visible .step = true
  left : ∀ {m n op}, R m n → allowed op → visible op = false → R (m.apply op).state n
  right : ∀ {m n op}, R m n → allowed op → visible op = false → R m (n.apply op).state
  both : ∀ {m n op}, R m n → visible op = true → (∀ i ∈ m.executed? op, banned i = false) →
    R (m.apply op).state (n.apply op).state
  executed : ∀ {m n op}, R m n → n.executed? op = m.executed? op
  fault : ∀ {m n op}, R m n → (∀ i ∈ m.executed? op, banned i = false) → n.fault? op = m.fault? op

section Related
variable {R : Machine → Machine → Prop} {allowed : Operation → Prop} {visible : Operation → Bool}
  {banned : Instruction → Bool} {m n : Machine} {first second : List Operation}

theorem Bisimilar.host (bisimilar : Bisimilar R allowed visible banned) {op : Operation}
    (silent : visible op = false) : op ≠ .step := by
  rintro rfl
  rw [bisimilar.steps] at silent
  contradiction

/-- Nothing is executed where nothing is visible. -/
theorem Bisimilar.silent_run (bisimilar : Bisimilar R allowed visible banned) (related : R m n)
    (allows : ∀ op ∈ second, allowed op) (silent : ∀ op ∈ second, visible op = false) :
    R m (n.run second).state ∧ n.executed second = [] ∧ n.raised second = [] := by
  induction second generalizing n with
  | nil => exact ⟨related, rfl, rfl⟩
  | cons op rest ih =>
    obtain ⟨allowsFirst, allowsRest⟩ := List.forall_mem_cons.mp allows
    obtain ⟨silentFirst, silentRest⟩ := List.forall_mem_cons.mp silent
    have host := bisimilar.host silentFirst
    have ⟨later, executed, raised⟩ :=
      ih (bisimilar.right related allowsFirst silentFirst) allowsRest silentRest
    refine ⟨later, ?_, ?_⟩
    · rw [Machine.executed, executed?_host host, executed]
      rfl
    · rw [Machine.raised, fault?_host host, raised]
      rfl

theorem run_related (bisimilar : Bisimilar R allowed visible banned) (related : R m n)
    (allows : ∀ op ∈ first ++ second, allowed op)
    (same : first.filter visible = second.filter visible)
    (avoids : ∀ i ∈ m.executed first, banned i = false) :
    R (m.run first).state (n.run second).state ∧
      n.executed second = m.executed first ∧ n.raised second = m.raised first := by
  induction first generalizing m n second with
  | nil =>
    have silent : ∀ op ∈ second, visible op = false := by
      intro op member
      exact Bool.eq_false_iff.mpr (List.filter_eq_nil_iff.mp same.symm op member)
    exact bisimilar.silent_run related allows silent
  | cons op rest ih =>
    rw [List.cons_append] at allows
    obtain ⟨allowsFirst, allowsRest⟩ := List.forall_mem_cons.mp allows
    obtain ⟨avoidsFirst, avoidsRest⟩ := List.forall_mem_append.mp avoids
    cases seen : visible op with
    | false =>
      have host := bisimilar.host seen
      rw [List.filter_cons_of_neg (by simp [seen])] at same
      rw [Machine.executed, Machine.raised, executed?_host host, fault?_host host]
      exact ih (bisimilar.left related allowsFirst seen) allowsRest same avoidsRest
    | true =>
      -- The second run comes to the same operation after silent ones of its own.
      rw [List.filter_cons_of_pos seen] at same
      obtain ⟨before, after, rfl, unseen, -, sameRest⟩ := List.filter_eq_cons_iff.mp same.symm
      obtain ⟨allowsLater, allowsSecond⟩ := List.forall_mem_append.mp allowsRest
      obtain ⟨allowsBefore, allowsAfter⟩ := List.forall_mem_append.mp allowsSecond
      have silent : ∀ op ∈ before, visible op = false := by
        intro op member
        exact Bool.eq_false_iff.mpr (unseen op member)
      obtain ⟨near, noneExecuted, noneRaised⟩ :=
        bisimilar.silent_run related allowsBefore silent
      have avoidsOp : ∀ i ∈ m.executed? op, banned i = false := by
        intro i executes
        exact avoidsFirst i (Option.mem_toList.mpr executes)
      obtain ⟨later, executed, raised⟩ := ih (bisimilar.both near seen avoidsOp)
        (List.forall_mem_append.mpr ⟨allowsLater, (List.forall_mem_cons.mp allowsAfter).2⟩)
        sameRest.symm avoidsRest
      rw [state_run_append, executed_append, raised_append, noneExecuted, noneRaised]
      refine ⟨later, ?_, ?_⟩
      · rw [Machine.executed, Machine.executed, bisimilar.executed near, executed]
        rfl
      · rw [Machine.raised, Machine.raised, bisimilar.fault near avoidsOp, raised]
        rfl

end Related

end Chip8.Machine
