import MeteredWasm.Proofs.Machine.Trail

/-!
# Gliding from one call of the hook to the next

Between two calls of the hook the machine glides (`Glides`): it charges nothing. It glides to one
place at most where it stops, because the hook is entered or because the machine ends
(`Glides.unique`), and every run that ends comes past there (`exists_glide`).

How deep the stack may get (`Instance.deep`) only matters where it is exhausted: with more room a
machine glides the same way (`Glides.deeper`).
-/

set_option autoImplicit false

namespace MeteredWasm.Machine

open Wasm Simulation

/-! ## Room for frames -/

/-- The instance, with room for so many frames. -/
def Instance.deep (i : Instance) (n : Nat) : Instance := { i with maxDepth := n }

/-- The machine fails for want of stack. -/
def Exhausts (i : Instance) (s : State) : Prop :=
  ∃ sb, step i s = .failed (.trap .callStackExhausted) sb

section
variable {i : Instance} {n n' : Nat} {s s' : State}

/-- With more room the machine takes the same step, unless there was too little. -/
theorem step_deeper (h : n ≤ n') (hroom : ¬Exhausts (i.deep n) s) :
    step (i.deep n') s = step (i.deep n) s := by
  obtain ⟨sb, control, frames, depth⟩ := s
  cases control with
  | run a => rfl
  | give results => rfl
  | invoke func args =>
    have hfunction : (i.deep n').function? func = (i.deep n).function? func := rfl
    simp only [step, stepInvoke, hfunction]
    cases hf : (i.deep n).function? func with
    | none => rfl
    | some f =>
      cases f with
      | hook => rfl
      | host module name type behaviour => rfl
      | code type locals body =>
        have hdepth : depth < n := by
          refine Nat.lt_of_not_le fun hle => hroom ⟨sb, ?_⟩
          simp only [step, stepInvoke, hf]
          exact if_neg (Nat.not_lt.2 hle)
        dsimp only
        rw [if_pos (show depth < (i.deep n).maxDepth from hdepth),
          if_pos (show depth < (i.deep n').maxDepth from Nat.lt_of_lt_of_le hdepth h)]

theorem next_deeper (h : n ≤ n') (hs : step (i.deep n) s = .next s') :
    step (i.deep n') s = .next s' := by
  rw [step_deeper h, hs]
  rintro ⟨sb, hexhausted⟩
  rw [hs] at hexhausted
  cases hexhausted

theorem Trail.deeper {visited : List State} (h : n ≤ n') (ht : Trail (i.deep n) s visited s') :
    Trail (i.deep n') s visited s' := by
  induction ht with
  | here => exact .here
  | step _ hstep ih => exact ih.step (next_deeper h hstep)

end

/-! ## Gliding -/

/-- Steps lead from one state to the other, and none of them enters the hook. -/
abbrev Glides (i : Instance) : State → State → Prop :=
  Relation.ReflTransGen fun s s' => ¬EntersHook i s.thread ∧ step i s = .next s'

/-- The machine glides no further: the hook is entered, or a run ends. -/
def Halts (i : Instance) (s : State) : Prop :=
  EntersHook i s.thread ∨ ∃ o, (step i s).outcome? = some o

/-- The machine glides no further, and would not with more room for the stack either. -/
structure Stops (i : Instance) (s : State) : Prop where
  halts : Halts i s
  roomy : ¬Exhausts i s

section
variable {i : Instance} {s s' s₁ s₂ : State}

theorem roomy_of_finished {results : List Value} {sb : Sandbox}
    (h : step i s = .finished results sb) : ¬Exhausts i s := by
  rintro ⟨sb', hexhausts⟩
  rw [h] at hexhausts
  cases hexhausts

theorem roomy_of_failed {error : ExecutionError} {sb : Sandbox} (h : step i s = .failed error sb)
    (hroomy : error ≠ .trap .callStackExhausted) : ¬Exhausts i s := by
  rintro ⟨sb', hexhausts⟩
  rw [h] at hexhausts
  cases hexhausts
  exact hroomy rfl

theorem Exhausts.halts (h : Exhausts i s) : Halts i s := by
  obtain ⟨sb, hstep⟩ := h
  exact .inr ⟨_, by rw [hstep]; rfl⟩

/-- Without room for one more frame the machine does not enter a function of code. -/
theorem exhausts_of_full {i : Instance} {sb : Sandbox} {frames : List Frame}
    {depth : Nat} {func : UInt32} {type : FuncType} {locals : List ValType} {body : List Operator}
    {args : List Value} (hfunc : i.function? func = some (.code type locals body))
    (hfull : i.maxDepth ≤ depth) : Exhausts i ⟨sb, ⟨.invoke func args, frames, depth⟩⟩ := by
  refine ⟨sb, ?_⟩
  change stepInvoke i sb _ func args = _
  simp only [stepInvoke, hfunc, if_neg (Nat.not_lt.2 hfull)]

/-- There is always room for the hook. -/
theorem Exhausts.not_enters (h : Exhausts i s) : ¬EntersHook i s.thread := by
  rintro ⟨func, args, hcontrol, hhook⟩
  obtain ⟨sb, hstep⟩ := h
  have hwrite (sb' : Sandbox) (address : Nat) (bytes : ByteArray) :
      sb'.write? i address bytes ≠ .error (.trap .callStackExhausted) := by
    unfold Sandbox.write? Memory.hostWrite Memory.writeShared Memory.writeOwned
    split
    · exact nofun
    · rename_i m _
      cases m.shared <;> cases m.holds address bytes.size <;> exact nofun
  rw [step, hcontrol] at hstep
  simp only [stepInvoke, hhook] at hstep
  split at hstep
  · unfold stepHook stepResume stepPause at hstep
    split at hstep
    · split at hstep <;> cases hstep
    · dsimp only at hstep
      split at hstep
      · cases hstep
      · split at hstep
        · cases hstep
        · split at hstep
          · rename_i hfailed
            cases hstep
            exact hwrite _ _ _ hfailed
          · cases hstep
  · cases hstep

theorem Halts.not_glides (h : Halts i s) : ¬(¬EntersHook i s.thread ∧ step i s = .next s') := by
  rintro ⟨henter, hstep⟩
  rcases h with hhook | ⟨o, ho⟩
  · exact henter hhook
  · rw [hstep] at ho
    cases ho

/-- There is one place at most where the machine stops gliding. -/
theorem Glides.unique (h₁ : Glides i s s₁) (hs₁ : Halts i s₁) (h₂ : Glides i s s₂)
    (hs₂ : Halts i s₂) : s₁ = s₂ := by
  induction h₁ using Relation.ReflTransGen.head_induction_on with
  | refl =>
    rcases Relation.ReflTransGen.cases_head h₂ with rfl | ⟨_, hstep, -⟩
    · rfl
    · exact absurd hstep hs₁.not_glides
  | @head s s₃ hstep _ ih =>
    rcases Relation.ReflTransGen.cases_head h₂ with rfl | ⟨s₄, hstep', hrest⟩
    · exact absurd hstep hs₂.not_glides
    · obtain rfl : s₃ = s₄ := Step.next.inj (hstep.2.symm.trans hstep'.2)
      exact ih hrest

theorem Glides.deeper {n n' : Nat} (hle : n ≤ n') (h : Glides (i.deep n) s s') :
    Glides (i.deep n') s s' := by
  induction h with
  | refl => exact .refl
  | tail _ hstep ih => exact ih.tail ⟨hstep.1, next_deeper hle hstep.2⟩

theorem Stops.deeper {n n' : Nat} (hle : n ≤ n') (h : Stops (i.deep n) s) :
    Stops (i.deep n') s := by
  have hstep := step_deeper hle h.roomy
  refine ⟨h.halts.imp id fun ⟨o, ho⟩ => ⟨o, hstep ▸ ho⟩, ?_⟩
  rintro ⟨sb, hexhausted⟩
  exact h.roomy ⟨sb, hstep ▸ hexhausted⟩

/-- Gliding is a trail on which nothing is charged. -/
theorem Glides.exists_trail (h : Glides i s s') :
    ∃ visited, Trail i s visited s' ∧ ∀ v ∈ visited, ¬EntersHook i v.thread := by
  induction h with
  | refl => exact ⟨[], .here, by simp⟩
  | @tail s₁ s₂ _ hstep ih =>
    obtain ⟨visited, htrail, hfree⟩ := ih
    refine ⟨_, htrail.step hstep.2, fun v hv => ?_⟩
    rcases List.mem_append.1 hv with hv | hv
    · exact hfree v hv
    · exact List.mem_singleton.1 hv ▸ hstep.1

theorem chargeOf_of_not_enters (h : ¬EntersHook i s.thread) : chargeOf i s = 0 := by
  unfold chargeOf
  split
  · rename_i func args hcontrol
    split
    · exact absurd ⟨func, _, hcontrol, ‹_›⟩ h
    · rfl
  · rfl

theorem charged_of_free {visited : List State} (h : ∀ v ∈ visited, ¬EntersHook i v.thread) :
    charged i visited = 0 := by
  induction visited with
  | nil => rfl
  | cons v visited ih =>
    have hsplit : charged i (v :: visited) = chargeOf i v + charged i visited := by
      simp [charged]
    rw [hsplit, chargeOf_of_not_enters (h v (List.mem_cons_self ..)),
      ih fun w hw => h w (List.mem_cons_of_mem _ hw)]
    rfl

/-- A run that ends glides to where it stops gliding. -/
theorem exists_glide {fuel : Nat} {o : Outcome} (h : run i fuel s = some o) :
    ∃ s₁, Glides i s s₁ ∧ Halts i s₁ := by
  induction fuel generalizing s with
  | zero => cases h
  | succ fuel ih =>
    by_cases henter : EntersHook i s.thread
    · exact ⟨s, .refl, .inl henter⟩
    · cases hstep : step i s with
      | next s₁ =>
        rw [run_succ_of_next hstep] at h
        obtain ⟨s₂, hglides, hhalts⟩ := ih h
        exact ⟨s₂, hglides.head ⟨henter, hstep⟩, hhalts⟩
      | _ => exact ⟨s, .refl, .inr ⟨_, by rw [hstep]; rfl⟩⟩

/-- A trail with a place to stop at its end glides to the first one. -/
theorem Trail.exists_glide {visited : List State} (h : Trail i s visited s') (hs' : Halts i s') :
    ∃ s₁, Glides i s s₁ ∧ Halts i s₁ := by
  induction visited generalizing s with
  | nil =>
    rcases h.cases_head with ⟨-, rfl⟩ | ⟨_, _, hnil, -⟩
    · exact ⟨s', .refl, hs'⟩
    · cases hnil
  | cons v visited ih =>
    rcases h.cases_head with ⟨hnil, -⟩ | ⟨s₁, rest, hcons, hstep, hrest⟩
    · cases hnil
    · cases hcons
      by_cases henter : EntersHook i v.thread
      · exact ⟨v, .refl, .inl henter⟩
      · obtain ⟨s₂, hglides, hhalts⟩ := ih hrest
        exact ⟨s₂, hglides.head ⟨henter, hstep⟩, hhalts⟩

theorem Glides.gas (h : Glides i s s') : s'.sandbox.gas = s.sandbox.gas := by
  obtain ⟨visited, htrail, hfree⟩ := h.exists_trail
  rw [htrail.gas, charged_of_free hfree, Int.sub_zero]

end

/-! ## Where gliding leads -/

/-- A call from outside glides to its return, and leaves the sandbox `sb`. -/
def ComesBack (i : Instance) (s : State) (sb : Sandbox) : Prop :=
  ∃ results depth, Glides i s ⟨sb, ⟨.give results, [], depth⟩⟩

/-- The machine glides into an error, beside the hook. -/
def Breaks (i : Instance) (s : State) : Prop :=
  ∃ s₁ error sb, Glides i s s₁ ∧ ¬EntersHook i s₁.thread ∧ step i s₁ = .failed error sb

/-- The machine glides on until there is no room for another frame. -/
def RunsOut (i : Instance) (s : State) : Prop := ∃ s₁, Glides i s s₁ ∧ Exhausts i s₁

section
variable {i : Instance} {s s' s₁ : State} {o : Outcome} {sb : Sandbox}

theorem Exhausts.breaks (h : Exhausts i s) : Breaks i s := by
  obtain ⟨sb, hstep⟩ := h
  exact ⟨s, _, sb, .refl, Exhausts.not_enters ⟨sb, hstep⟩, hstep⟩

theorem Glides.reaches (h : Glides i s s') : Reaches i s s' :=
  h.lift id fun _ _ hstep => hstep.2

/-- A trail to an end goes where the machine glides to, and is no longer if the machine ends
there. -/
theorem Glides.split_trail {visited : List State} (h : Glides i s s₁)
    (htrail : Trail i s visited s') (ho : (step i s').outcome? = some o) :
    ∃ first rest, visited = first ++ rest ∧ Trail i s first s₁ ∧ Trail i s₁ rest s' ∧
      ∀ v ∈ first, ¬EntersHook i v.thread := by
  obtain ⟨first, hfirst, hfree⟩ := h.exists_trail
  rcases hfirst.compare htrail with ⟨rest, rfl, hrest⟩ | ⟨s₂, rest, -, hstep, -⟩
  · exact ⟨first, rest, rfl, hfirst, hrest, hfree⟩
  · rw [hstep] at ho
    cases ho

theorem Trail.nil_of_outcome {visited : List State} {o' : Outcome} (h : Trail i s visited s')
    (ho : (Machine.step i s).outcome? = some o') : visited = [] ∧ s' = s := by
  rcases h.cases_head with hnil | ⟨s₂, rest, -, hstep, -⟩
  · exact hnil
  · rw [hstep] at ho
    cases ho

/-- There is one way to an end. -/
theorem Trail.unique_end {visited more : List State} {o' : Outcome} (h : Trail i s visited s')
    (ho : (Machine.step i s').outcome? = some o) (h' : Trail i s more s₁)
    (ho' : (Machine.step i s₁).outcome? = some o') : visited = more ∧ s' = s₁ := by
  rcases h.compare h' with ⟨rest, rfl, hrest⟩ | ⟨_, rest, -, hstep, -⟩
  · obtain ⟨rfl, rfl⟩ := hrest.nil_of_outcome ho
    exact ⟨(List.append_nil _).symm, rfl⟩
  · rw [hstep] at ho'
    cases ho'

/-- However much room there is, a trail is the beginning of one to an end. -/
theorem Trail.exists_rest {n n' : Nat} {visited more : List State}
    (h : Trail (i.deep n) s visited s₁) (h' : Trail (i.deep n') s more s')
    (ho' : (Machine.step (i.deep n') s').outcome? = some o) (hroomy : ¬Exhausts (i.deep n') s') :
    ∃ rest, more = visited ++ rest ∧ Trail (i.deep (max n n')) s₁ rest s' := by
  have hmore := h'.deeper (Nat.le_max_right n n')
  rcases (h.deeper (Nat.le_max_left n n')).compare hmore with
    ⟨rest, rfl, hrest⟩ | ⟨_, rest, -, hstep, -⟩
  · exact ⟨rest, rfl, hrest⟩
  · rw [step_deeper (Nat.le_max_right n n') hroomy] at hstep
    rw [hstep] at ho'
    cases ho'

/-- However much room there is, there is one way to an end. -/
theorem Trail.unique_end_deep {n n' : Nat} {visited more : List State} {o' : Outcome}
    (h : Trail (i.deep n) s visited s₁) (ho : (Machine.step (i.deep n) s₁).outcome? = some o)
    (hroomy : ¬Exhausts (i.deep n) s₁) (h' : Trail (i.deep n') s more s')
    (ho' : (Machine.step (i.deep n') s').outcome? = some o') (hroomy' : ¬Exhausts (i.deep n') s') :
    visited = more ∧ s₁ = s' ∧ o = o' := by
  have hsame := step_deeper (Nat.le_max_left n n') hroomy
  have hsame' := step_deeper (Nat.le_max_right n n') hroomy'
  rw [← hsame] at ho
  rw [← hsame'] at ho'
  obtain ⟨rfl, rfl⟩ := (h.deeper (Nat.le_max_left n n')).unique_end ho
    (h'.deeper (Nat.le_max_right n n')) ho'
  exact ⟨rfl, rfl, Option.some.inj (ho.symm.trans ho')⟩

theorem Glides.ends (h : Glides i s s₁) (ho : (step i s₁).outcome? = some o) : Ends i s o :=
  h.reaches.ends ⟨1, run_succ_of_outcome ho 0⟩

theorem ComesBack.ends (h : ComesBack i s sb) : ∃ results, Ends i s (.finished results sb) := by
  obtain ⟨results, depth, hglides⟩ := h
  exact ⟨results, hglides.ends rfl⟩

theorem Breaks.ends (h : Breaks i s) : ∃ error sb, Ends i s (.failed error sb) := by
  obtain ⟨s₁, error, sb, hglides, -, hstep⟩ := h
  exact ⟨error, sb, hglides.ends (by rw [hstep]; rfl)⟩

theorem RunsOut.ends (h : RunsOut i s) :
    ∃ sb, Ends i s (.failed (.trap .callStackExhausted) sb) := by
  obtain ⟨s₁, hglides, sb, hstep⟩ := h
  exact ⟨sb, hglides.ends (by rw [hstep]; rfl)⟩

end

end MeteredWasm.Machine
