import MeteredWasm.Proofs.Codec.Types
import MeteredWasm.Wasm.Operator.Proposal

/-!
# Operators of proposals are read back

Such an operator is its opcode with immediates of the kinds that the opcode calls for. Each kind is
read back as it was written, so the immediates are, in order, and the operator is
(`Proposal.readAfter_gives`). What the opcodes are, and that nothing else is read from them, is a
matter of the tables.
-/

set_option autoImplicit false

namespace MeteredWasm.Wasm

open Leb128 Reader

variable {dialect : Dialect} {sure : Prop}

/-! ## Immediates -/

/-- What a dialect has of an immediate. -/
def Immediate.Within (dialect : Dialect) : Immediate → Prop
  | .index _ => True
  | .memArg arg => arg.Within dialect
  | .blockType type => type.Bounded
  | .heapType heap => heap.Bounded
  | .target heap => heap.isReferable = true
  | .catches clauses => clauses.length ≤ maxClauses
  | .handlers clauses => clauses.length ≤ maxClauses
  | .nullability flags => flags < 4
  | .ordering n => n < 2

theorem Immediate.read_gives (i : Immediate) (h : i.kind ≠ .memArg)
    (hs : sure → i.Within dialect) :
    (Immediate.read dialect i.kind).Gives sure i.write ⟨i, rfl⟩ := by
  cases i with
  | index n => exact (readU32_gives n).bind_pure (.pure _)
  | memArg arg => exact absurd rfl h
  | blockType type => exact (BlockType.read_gives type hs).bind_pure (.pure _)
  | heapType heap => exact (HeapType.read_gives heap hs).bind_pure (.pure _)
  | target heap => exact (HeapType.readReferable_gives heap hs).bind_pure (.pure _)
  | catches clauses =>
    exact (readClauses_gives hs fun c _ => Catch.read_gives c).bind_pure (.pure _)
  | handlers clauses =>
    exact (readClauses_gives hs fun c _ => Handler.read_gives c).bind_pure (.pure _)
  | nullability flags => exact .byte (.require (fun h => decide_eq_true (hs h)) fun _ => .pure _)
  | ordering n =>
    exact (readU32_gives n).bind_pure (.require (fun h => decide_eq_true (hs h)) fun _ => .pure _)

theorem Immediate.readAll_gives (is : List Immediate) (h : ∀ i ∈ is, i.kind ≠ .memArg)
    (hs : sure → ∀ i ∈ is, i.Within dialect) :
    (Immediate.readAll dialect (is.map Immediate.kind)).Gives sure (is.flatMap Immediate.write)
      ⟨is, rfl⟩ := by
  induction is with
  | nil => exact .pure _
  | cons i is ih =>
    have hfirst := Immediate.read_gives i (h i (List.mem_cons_self ..)) fun hsure =>
      hs hsure i (List.mem_cons_self ..)
    have hrest := ih (fun j hj => h j (List.mem_cons_of_mem _ hj)) fun hsure j hj =>
      hs hsure j (List.mem_cons_of_mem _ hj)
    exact hfirst.bind (hrest.bind_pure (.pure _))

/-! ## Opcodes -/

theorem mem_of_lookup {α β : Type} [BEq α] [LawfulBEq α] {xs : List (α × β)} {a : α} {b : β}
    (h : xs.lookup a = some b) : (a, b) ∈ xs := by
  induction xs with
  | nil => cases h
  | cons x xs ih =>
    rw [List.lookup_cons] at h
    split at h
    · rename_i heq
      cases h
      rw [eq_of_beq heq]
      exact List.mem_cons_self ..
    · exact List.mem_cons_of_mem _ (ih h)

/-- The operators of proposals on a page. -/
def Opcode.table : Option UInt8 → List (Nat × List ImmediateKind)
  | none => singleByteProposals
  | some 0xFB => aggregateProposals
  | some 0xFC => miscProposals
  | some 0xFD => relaxedProposals
  | some 0xFE => atomicProposals
  | some _ => []

theorem Opcode.proposal?_eq (opcode : Opcode) :
    opcode.proposal? = (Opcode.table opcode.page).lookup opcode.code := by
  obtain ⟨page, code⟩ := opcode
  unfold proposal? Opcode.table
  dsimp only
  split
  case h_6 => simp_all
  all_goals rfl

namespace Proposal

theorem mem_table (p : Proposal) :
    (p.opcode.code, p.immediates.map Immediate.kind) ∈ Opcode.table p.opcode.page :=
  mem_of_lookup ((Opcode.proposal?_eq p.opcode).symm.trans p.listed)

/-- No table calls for a memory argument, and codes are numbers of 32 bits. -/
theorem table_bounds (page : Option UInt8) :
    ∀ x ∈ Opcode.table page, ImmediateKind.memArg ∉ x.2 ∧ x.1 < 2 ^ 32 := by
  unfold Opcode.table
  split
  case h_6 => exact fun x hx => nomatch hx
  all_goals decide +kernel

theorem code_lt (p : Proposal) : p.opcode.code < 2 ^ 32 := (table_bounds _ _ p.mem_table).2

theorem kind_ne_memArg (p : Proposal) : ∀ i ∈ p.immediates, i.kind ≠ .memArg := fun _ hi he =>
  (table_bounds _ _ p.mem_table).1 (he ▸ List.mem_map_of_mem hi)

/-- What a dialect has of the immediates of an operator. -/
def Within (dialect : Dialect) (p : Proposal) : Prop := ∀ i ∈ p.immediates, i.Within dialect

theorem readAfter_gives (p : Proposal) (hs : sure → p.Within dialect) :
    (readAfter dialect p.opcode).Gives sure (p.immediates.flatMap Immediate.write) p := by
  unfold readAfter
  split
  · rename_i hnone
    rw [p.listed] at hnone
    cases hnone
  · rename_i kinds hkinds
    obtain rfl : p.immediates.map Immediate.kind = kinds :=
      Option.some.inj (p.listed.symm.trans hkinds)
    exact (Immediate.readAll_gives p.immediates p.kind_ne_memArg hs).bind_pure (.pure _)

end Proposal

end MeteredWasm.Wasm
