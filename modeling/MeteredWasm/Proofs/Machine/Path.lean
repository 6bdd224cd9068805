import MeteredWasm.Machine.Step
import MeteredWasm.Proofs.Basic
import MeteredWasm.Proofs.Machine.Skip

/-!
# Control paths

The ways that control can take through a body, values aside. A `Point` is a place in a body: where
a branch to each of the enclosing blocks goes back to, and the code that is left. An operator has
the points that control may go on to as its successors (`Point.successors`), `none` where it
leaves the body: a loop is entered again right behind its operator, any other block is left right
behind its end. A `Path` passes operators one by one.

The machine takes no other ways than these (`stepCode_takes_path`).
-/

set_option autoImplicit false

namespace MeteredWasm.Machine

open Wasm

/-! ## Points -/

/-- A place in a body. -/
structure Point where
  /-- For every enclosing block, innermost first: the code that a branch goes back to, if the block
  is a loop. -/
  labels : List (Option (List Operator))
  /-- What is left to run. -/
  code : List Operator
  deriving DecidableEq

namespace Point

/-- Where a body starts. -/
def start (code : List Operator) : Point := ⟨[], code⟩

variable (p : Point)

/-- Where a taken branch goes on; `none` if it leaves the body. -/
def branch (k : Nat) : Option Point :=
  match p.labels[k]? with
  | none => none
  | some (some body) => some ⟨p.labels.drop k, body⟩
  | some none => some ⟨p.labels.drop (k + 1), skipEnd k p.code⟩

/-- Where control goes on behind an operator that is taken off the code; `none` is outside of the
body. -/
def successors : Operator → List (Option Point)
  | .unreachable => []
  | .elseMark => [some ⟨p.labels.drop 1, skipEnd 0 p.code⟩]
  | .endMark =>
    match p.labels with
    | [] => [none]
    | _ :: labels => [some ⟨labels, p.code⟩]
  | .ret => [none]
  | .block _ => [some ⟨none :: p.labels, p.code⟩]
  | .loop _ => [some ⟨some p.code :: p.labels, p.code⟩]
  | .ifThen _ =>
    [some ⟨none :: p.labels, p.code⟩,
      match skipElse 0 p.code with
      | (true, other) => some ⟨none :: p.labels, other⟩
      | (false, behind) => some ⟨p.labels, behind⟩]
  | .br label => [p.branch label.toNat]
  | .brIf label => [p.branch label.toNat, some p]
  | .brTable labels fallback => (labels ++ [fallback]).map fun label => p.branch label.toNat
  | .returnCall _ | .returnCallIndirect _ _ => [none]
  | _ => [some p]

/-- Only code of the body is left, also behind a branch. -/
def Inside (body : List Operator) : Prop :=
  p.code <:+ body ∧ ∀ again ∈ p.labels, ∀ code ∈ again, code <:+ body

theorem inside_start (code : List Operator) : (start code).Inside code :=
  ⟨List.suffix_refl _, by simp [start]⟩

end Point

/-- `Path p ops q`: control can get from `p` to `q` by way of `ops`; `none` is outside of the
body. -/
inductive Path (p : Point) : List Operator → Option Point → Prop
  | here : Path p [] (some p)
  | step {ops : List Operator} {labels : List (Option (List Operator))} {op : Operator}
      {code : List Operator} {q : Option Point}
      (before : Path p ops (some ⟨labels, op :: code⟩))
      (next : q ∈ Point.successors ⟨labels, code⟩ op) : Path p (ops ++ [op]) q

theorem Path.trans {p q : Point} {r : Option Point} {ops more : List Operator}
    (h : Path p ops (some q)) (hm : Path q more r) : Path p (ops ++ more) r := by
  induction hm with
  | here => simpa using h
  | step _ next ih => simpa using ih.step next

/-! ## What holds of all code that is left -/

/-- `P` holds of all code that control may run on in: what is left, and what a branch goes back
to. -/
def Point.All (P : List Operator → Prop) (p : Point) : Prop :=
  P p.code ∧ ∀ again ∈ p.labels, ∀ code ∈ again, P code

section
variable {P : List Operator → Prop} {p q : Point}
  (hloops : ∀ again ∈ p.labels, ∀ code ∈ again, P code) (hend : ∀ k, P (skipEnd k p.code))
include hloops hend

theorem branch_all {k : Nat} (hq : p.branch k = some q) : q.All P := by
  unfold Point.branch at hq
  cases hk : p.labels[k]? with
  | none => simp [hk] at hq
  | some again =>
    have hmem := List.mem_of_getElem? hk
    cases again with
    | none =>
      simp only [hk, Option.some.injEq] at hq
      subst hq
      exact ⟨hend k, fun a ha => hloops a (List.mem_of_mem_drop ha)⟩
    | some code =>
      simp only [hk, Option.some.injEq] at hq
      subst hq
      exact ⟨hloops _ hmem _ rfl, fun a ha => hloops a (List.mem_of_mem_drop ha)⟩

/-- What holds behind an operator, behind each end from there on and in the other branch holds
wherever control goes on. -/
theorem successors_all {op : Operator} (hcode : P p.code) (helse : P (skipElse 0 p.code).2)
    (hq : some q ∈ p.successors op) : q.All P := by
  have hblock {code : List Operator} (h : P code) : Point.All P ⟨none :: p.labels, code⟩ :=
    ⟨h, List.forall_mem_cons.2 ⟨nofun, hloops⟩⟩
  cases op
  case unreachable | ret | returnCall | returnCallIndirect => simp [Point.successors] at hq
  case block =>
    simp only [Point.successors, List.mem_singleton, Option.some.injEq] at hq
    exact hq ▸ hblock hcode
  case loop =>
    simp only [Point.successors, List.mem_singleton, Option.some.injEq] at hq
    subst hq
    exact ⟨hcode, List.forall_mem_cons.2 ⟨fun _ h => Option.some.inj h ▸ hcode, hloops⟩⟩
  case ifThen =>
    simp only [Point.successors, List.mem_cons, Option.some.injEq, List.not_mem_nil,
      or_false] at hq
    rcases hq with rfl | hq
    · exact hblock hcode
    · split at hq <;> rename_i hskip <;> rw [hskip] at helse <;> cases hq
      · exact hblock helse
      · exact ⟨helse, hloops⟩
  case elseMark =>
    simp only [Point.successors, List.mem_singleton, Option.some.injEq] at hq
    subst hq
    exact ⟨hend 0, fun a ha => hloops a (List.mem_of_mem_drop ha)⟩
  case endMark =>
    simp only [Point.successors] at hq
    split at hq
    · simp at hq
    · rename_i label labels hlabels
      simp only [List.mem_singleton, Option.some.injEq] at hq
      subst hq
      exact ⟨hcode, fun a ha => hloops a (hlabels ▸ List.mem_cons_of_mem _ ha)⟩
  case br =>
    simp only [Point.successors, List.mem_singleton] at hq
    exact branch_all hloops hend hq.symm
  case brIf =>
    simp only [Point.successors, List.mem_cons, Option.some.injEq, List.not_mem_nil,
      or_false] at hq
    rcases hq with hq | rfl
    · exact branch_all hloops hend hq.symm
    · exact ⟨hcode, hloops⟩
  case brTable =>
    simp only [Point.successors, List.mem_map] at hq
    obtain ⟨label, -, hq⟩ := hq
    exact branch_all hloops hend hq
  all_goals
    simp only [Point.successors, List.mem_singleton, Option.some.injEq] at hq
    exact hq ▸ ⟨hcode, hloops⟩

end

/-! ## Paths stay in the body -/

section
variable {body : List Operator} {p : Point} (h : p.Inside body)
include h

theorem successors_inside {op : Operator} {q : Point} (hq : some q ∈ p.successors op) :
    q.Inside body :=
  successors_all (P := (· <:+ body)) h.2 (fun k => (skipEnd_suffix k p.code).trans h.1) h.1
    ((skipElse_suffix 0 p.code).trans h.1) hq

/-- A path from inside of a body stays there, and passes operators of the body. -/
theorem Path.inside {ops : List Operator} {q : Option Point} (hp : Path p ops q) :
    (∀ x ∈ q, x.Inside body) ∧ ∀ op ∈ ops, op ∈ body := by
  induction hp with
  | here => exact ⟨fun x hx => Option.some.inj hx ▸ h, by simp⟩
  | @step ops labels op code q before next ih =>
    obtain ⟨hx, hops⟩ := ih
    have hin : op :: code <:+ body := (hx _ rfl).1
    refine ⟨fun x hq => ?_, fun op' h' => ?_⟩
    · rw [Option.mem_def] at hq
      subst hq
      exact successors_inside (p := ⟨labels, code⟩)
        ⟨(List.suffix_cons _ _).trans hin, (hx _ rfl).2⟩ next
    · rcases List.mem_append.1 h' with h' | h'
      · exact hops op' h'
      · rw [List.mem_singleton.1 h']
        exact hin.subset (List.mem_cons_self ..)

end

/-! ## The machine takes paths -/

/-- Where an activation stands. -/
def Activation.point (a : Activation) : Point := ⟨a.labels.map Label.again, a.code⟩

/-- Where a thread stands in the body that it runs, or has just called a function from; `none` if
it has left the body. -/
def Thread.point (t : Thread) : Option Point :=
  match t.control, t.frames with
  | .run a, _ | .invoke _ _, .activation a :: _ => some a.point
  | _, _ => none

section
variable {i : Instance} {st : Storage} {a : Activation} {t t' : Thread} {op : Operator}

theorem point_jump (a : Activation) (t : Thread) (k : Nat) (vs : List Value) :
    ({ t with control := a.jump k vs } : Thread).point = a.point.branch k := by
  unfold Activation.jump Activation.branch Point.branch Activation.point
  rw [List.getElem?_map]
  cases hl : a.labels[k]? with
  | none => rfl
  | some label =>
    cases hg : label.again <;> simp [hg, Thread.point, Activation.point, List.map_drop]

/-- Whether a function is called in the place of the one that runs. -/
def isTailCall : Operator → Bool
  | .returnCall _ | .returnCallIndirect _ _ => true
  | _ => false

/-- Control flow goes on at a successor. -/
theorem mem_successors_of_flow (hop : isTailCall op = false)
    (h : flow? i st a t op = some (.ok t')) : t'.point ∈ a.point.successors op := by
  unfold flow? at h
  split at h <;> simp only [isTailCall, Bool.true_eq_false] at hop <;>
    simp only [reduceCtorEq, Option.some.injEq, Except.ok.injEq, except_bind_eq_ok] at h
  · subst h
    simp [Thread.point, Activation.point, Point.successors]
  · split at h <;> rename_i hl <;> simp only [Option.some.injEq, Except.ok.injEq] at h <;>
      subst h <;> simp [Thread.point, Activation.point, Point.successors, hl]
  · subst h
    simp [Thread.point, Point.successors]
  · subst h
    simp [Thread.point, Activation.point, Activation.enter, Point.successors]
  · subst h
    simp [Thread.point, Activation.point, Activation.enter, Point.successors]
  · obtain ⟨n, -, h⟩ := h
    split at h
    · cases h
      simp [Thread.point, Activation.point, Activation.enter, Point.successors]
    · cases hs : skipElse 0 a.code with
      | mk turned code => cases turned <;> simp only [hs, Except.ok.injEq] at h <;> subst h <;>
          simp [Thread.point, Activation.point, Activation.enter, Point.successors, hs]
  · subst h
    simp [point_jump, Point.successors]
  · obtain ⟨n, -, h⟩ := h
    split at h <;> cases h
    · simp [point_jump, Point.successors]
    · simp [Thread.point, Activation.point, Point.successors]
  · rename_i labels fallback _ _ _
    obtain ⟨n, -, h⟩ := h
    cases h
    rw [point_jump]
    refine List.mem_map_of_mem ?_
    cases hg : labels[n.toNat]? with
    | none => simp
    | some label => simp [List.mem_of_getElem? hg]
  · split at h <;> simp only [Option.some.injEq, Except.ok.injEq, reduceCtorEq] at h
    subst h
    simp [callFrom, Thread.point, Activation.point, Point.successors]
  · obtain ⟨⟨f, type⟩, -, h⟩ := h
    cases h
    simp [callFrom, Thread.point, Activation.point, Point.successors]
  · obtain ⟨arity, -, h⟩ := Option.map_eq_some_iff.1 h
    obtain ⟨operands, -, h⟩ := except_bind_eq_ok.1 h
    cases h
    simp [Thread.point, Activation.point, Point.successors]

/-- Whether a function is called that comes back. -/
def isCall : Operator → Bool
  | .call _ | .callIndirect _ _ => true
  | _ => false

/-- The frames stay, but for a call, which leaves the caller on top of them. -/
theorem frames_of_flow (h : flow? i st a t op = some (.ok t')) :
    (isCall op = false ∧ t'.frames = t.frames) ∨ (isCall op = true ∧ ∃ func args operands,
      t' = ⟨.invoke func args, .activation { a with operands } :: t.frames, t.depth + 1⟩) := by
  unfold flow? at h
  split at h <;>
    simp only [reduceCtorEq, Option.some.injEq, Except.ok.injEq, except_bind_eq_ok] at h
  case h_11 =>
    split at h <;> simp only [Option.some.injEq, Except.ok.injEq, reduceCtorEq] at h
    exact .inr ⟨rfl, _, _, _, h.symm⟩
  case h_13 =>
    obtain ⟨⟨f, type⟩, -, h⟩ := h
    cases h
    exact .inr ⟨rfl, _, _, _, rfl⟩
  all_goals refine .inl ⟨rfl, ?_⟩
  case h_7 =>
    obtain ⟨c, -, h⟩ := h
    split at h
    · cases h
      rfl
    · split at h <;> cases h <;> rfl
  case h_3 | h_12 =>
    split at h <;> simp only [Option.some.injEq, Except.ok.injEq, reduceCtorEq] at h <;>
      subst h <;> rfl
  case h_9 =>
    obtain ⟨c, -, h⟩ := h
    split at h <;> cases h <;> rfl
  case h_10 | h_14 =>
    obtain ⟨c, -, h⟩ := h
    cases h
    rfl
  case h_15 =>
    obtain ⟨arity, -, h⟩ := Option.map_eq_some_iff.1 h
    obtain ⟨operands, -, h⟩ := except_bind_eq_ok.1 h
    cases h
    rfl
  all_goals
    subst h
    rfl

/-- An operator that only computes goes on behind itself. -/
theorem mem_successors_of_perform {locals : List Value} {st' : Storage}
    {r : List Value × List Value} (hf : flow? i st a t op = none)
    (h : perform op locals a.operands st = .ok r st') : some a.point ∈ a.point.successors op := by
  cases op
  -- Control flow that finds no operands traps.
  case unreachable | block | loop | ifThen | elseMark | endMark | br | brIf | brTable | ret
      | returnCall | returnCallIndirect =>
    have trapped : EStateM.Result.error Trap.unreachable st = EStateM.Result.ok r st' := h
    cases trapped
  all_goals simp [Point.successors]

/-- A step that runs an operator leads to one of its successors. -/
theorem stepCode_takes_path {sandbox : Sandbox} {code : List Operator} {s : State}
    (hop : isTailCall op = false)
    (h : stepCode i sandbox t { a with code := op :: code } = .next s) :
    s.thread.point ∈ ({ a with code } : Activation).point.successors op := by
  unfold stepCode at h
  simp only at h
  split at h
  · cases h
    exact mem_successors_of_flow hop ‹_›
  · cases h
  · split at h
    · cases h
      exact mem_successors_of_perform ‹_› ‹_›
    · cases h

end

end MeteredWasm.Machine
