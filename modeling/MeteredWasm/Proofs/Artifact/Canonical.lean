import MeteredWasm.Artifact.Codec
import MeteredWasm.Proofs.Codec.Reads

/-!
# The byte form of artifacts is canonical

A decoder *spells* its values in certain forms if it reads a value exactly from the inputs that
start with a form of it, and if a form that is cut short leaves it without bytes. Both halves go
through the sequencing of decoders: a form of the whole is a form of the first part with a form of
the second behind it, and where the whole is cut, either the first part is cut or the second is.

So it is enough to say how each primitive spells. What the decoder of artifacts then spells is the
encoding and nothing else, provided that lengths are the numbers of eight bytes that they are
written as.
-/

set_option autoImplicit false

namespace MeteredWasm.Artifact

variable {α β : Type}

namespace Decoder

theorem bind_apply (x : Decoder α) (k : α → Decoder β) (input : Bytes) :
    (x >>= k) input = (x input >>= fun (a, rest) => k a rest) := rfl

theorem bind_eq_ok {x : Decoder α} {k : α → Decoder β} {input rest : Bytes} {b : β} :
    (x >>= k) input = .ok (b, rest) ↔
      ∃ a middle, x input = .ok (a, middle) ∧ k a middle = .ok (b, rest) := by
  rw [bind_apply]
  cases h : x input with
  | error e => simp [bind, Except.bind]
  | ok y =>
    obtain ⟨a, middle⟩ := y
    constructor
    · exact fun hk => ⟨a, middle, rfl, hk⟩
    · rintro ⟨a, middle, ⟨⟩, hk⟩
      exact hk

/-- The decoder reads `a` exactly from what starts with some `w` with `form a w`, and runs out of
bytes on the start of such a `w`. -/
structure Spells (x : Decoder α) (form : α → Bytes → Prop) : Prop where
  ok_iff : ∀ input a rest, x input = .ok (a, rest) ↔ ∃ w, form a w ∧ input = w ++ rest
  ended : ∀ {a front back}, form a (front ++ back) → back ≠ [] → x front = .error .ended

namespace Spells

theorem congr {x : Decoder α} {form form' : α → Bytes → Prop} (h : x.Spells form)
    (hform : ∀ a w, form a w ↔ form' a w) : x.Spells form' := by
  have he : form = form' := funext fun a => funext fun w => propext (hform a w)
  exact he ▸ h

theorem pure (a : α) : (Pure.pure a : Decoder α).Spells fun b w => b = a ∧ w = [] where
  ok_iff input b rest := by
    show Except.ok (a, input) = .ok (b, rest) ↔ _
    constructor
    · intro h
      cases h
      exact ⟨[], ⟨rfl, rfl⟩, rfl⟩
    · rintro ⟨w, ⟨rfl, rfl⟩, rfl⟩
      rfl
  ended h hback := absurd (List.append_eq_nil_iff.1 h.2).2 hback

theorem throw (e : DecodeError) : (throw e : Decoder α).Spells fun _ _ => False where
  ok_iff input b rest := by
    show Except.error e = .ok (b, rest) ↔ _
    simp
  ended h := h.elim

/-- The form of two parts is the form of the one with the form of the other behind it. -/
theorem bind {x : Decoder α} {k : α → Decoder β} {form : α → Bytes → Prop}
    {g : α → β → Bytes → Prop} (hx : x.Spells form) (hk : ∀ a, (k a).Spells (g a)) :
    (x >>= k).Spells fun b w => ∃ a front back, form a front ∧ g a b back ∧ w = front ++ back
    where
  ok_iff input b rest := by
    rw [bind_eq_ok]
    constructor
    · rintro ⟨a, middle, ha, hb⟩
      obtain ⟨front, hfront, rfl⟩ := (hx.ok_iff ..).1 ha
      obtain ⟨back, hback, rfl⟩ := ((hk a).ok_iff ..).1 hb
      exact ⟨_, ⟨a, front, back, hfront, hback, rfl⟩, (List.append_assoc ..).symm⟩
    · rintro ⟨_, ⟨a, front, back, hfront, hback, rfl⟩, rfl⟩
      refine ⟨a, back ++ rest, (hx.ok_iff ..).2 ⟨front, hfront, List.append_assoc ..⟩, ?_⟩
      exact ((hk a).ok_iff ..).2 ⟨back, hback, rfl⟩
  ended := by
    rintro b front back ⟨a, wx, wk, hwx, hwk, hw⟩ hback
    rcases List.append_eq_append_iff.1 hw with ⟨cut, rfl, rfl⟩ | ⟨cut, rfl, rfl⟩
    · -- The cut is in front of the second part: at its very start, or inside of the first.
      by_cases hcut : cut = []
      · subst hcut
        rw [List.append_nil] at hwx
        have hread : x front = .ok (a, []) := (hx.ok_iff ..).2 ⟨front, hwx, by simp⟩
        have hend : k a [] = .error .ended := (hk a).ended (by simpa using hwk) hback
        rw [bind_apply, hread]
        exact hend
      · rw [bind_apply, hx.ended hwx hcut]
        rfl
    · have hread : x (wx ++ cut) = .ok (a, cut) := (hx.ok_iff ..).2 ⟨wx, hwx, rfl⟩
      rw [bind_apply, hread]
      exact (hk a).ended hwk hback

theorem bind_pure {x : Decoder α} {form : α → Bytes → Prop} (f : α → β) (hx : x.Spells form) :
    (x >>= fun a => Pure.pure (f a)).Spells fun b w => ∃ a, form a w ∧ b = f a := by
  refine (hx.bind fun a => .pure (f a)).congr fun b w => ?_
  constructor
  · rintro ⟨a, front, -, hfront, ⟨rfl, rfl⟩, rfl⟩
    exact ⟨a, by rwa [List.append_nil], rfl⟩
  · rintro ⟨a, ha, rfl⟩
    exact ⟨a, w, [], ha, ⟨rfl, rfl⟩, (List.append_nil w).symm⟩

end Spells

end Decoder

open Decoder

/-! ## The primitives -/

theorem spells_readBytes (n : Nat) : (readBytes n).Spells fun bs w => bs.length = n ∧ w = bs where
  ok_iff input bs rest := by
    unfold readBytes
    constructor
    · intro h
      split at h
      · rename_i hsplit
        cases h
        obtain ⟨rfl, hlen⟩ := Reader.eq_append_of_splitExactly hsplit
        exact ⟨_, ⟨hlen, rfl⟩, rfl⟩
      · cases h
    · rintro ⟨w, ⟨rfl, rfl⟩, rfl⟩
      rw [Reader.splitExactly_append]
  ended := by
    rintro bs front back ⟨rfl, rfl⟩ hback
    have hpos := List.length_pos_iff.2 hback
    have hnone : Reader.splitExactly (front ++ back).length front = none := by
      rw [Reader.splitExactly_eq_none_iff, List.length_append]
      omega
    rw [readBytes, hnone]

theorem spells_readByte : readByte.Spells fun b w => w = [b] where
  ok_iff input b rest := by
    cases input with
    | nil => simp [readByte]
    | cons c input => simp [readByte]
  ended := by
    intro b front back h hback
    cases front with
    | nil => rfl
    | cons c front => simp_all

theorem spells_readNumber (count : Nat) :
    (readNumber count).Spells fun n w => n < 1 <<< (8 * count) ∧ w = LittleEndian.write count n := by
  refine ((spells_readBytes count).bind_pure LittleEndian.value).congr fun n w => ?_
  constructor
  · rintro ⟨bs, ⟨rfl, rfl⟩, rfl⟩
    exact ⟨LittleEndian.value_lt _, (LittleEndian.write_value _).symm⟩
  · rintro ⟨hn, rfl⟩
    refine ⟨_, ⟨LittleEndian.length_write .., rfl⟩, ?_⟩
    rw [LittleEndian.value_write, Nat.mod_eq_of_lt hn]

theorem spells_readWord : readWord.Spells fun n w => w = writeWord n := by
  refine ((spells_readNumber 8).bind_pure Nat.toUInt64).congr fun n w => ?_
  constructor
  · rintro ⟨k, ⟨hk, rfl⟩, rfl⟩
    rw [writeWord, Nat.toUInt64_eq, UInt64.toNat_ofNat_of_lt' hk]
  · rintro rfl
    exact ⟨n.toNat, ⟨n.toNat_lt, rfl⟩, by simp⟩

theorem spells_readHalf : readHalf.Spells fun n w => w = LittleEndian.write 4 n.toNat := by
  refine ((spells_readNumber 4).bind_pure Nat.toUInt32).congr fun n w => ?_
  constructor
  · rintro ⟨k, ⟨hk, rfl⟩, rfl⟩
    rw [Nat.toUInt32_eq, UInt32.toNat_ofNat_of_lt' hk]
  · rintro rfl
    exact ⟨n.toNat, ⟨n.toNat_lt, rfl⟩, by simp⟩

theorem spells_readBool : readBool.Spells fun b w => w = writeBool b := by
  unfold readBool
  refine (spells_readByte.bind (g := fun c b w => writeBool b = [c] ∧ w = []) fun c => ?_).congr
    fun b w => ?_
  · split
    · exact (Spells.pure false).congr fun b w => by cases b <;> simp [writeBool]
    · exact (Spells.pure true).congr fun b w => by cases b <;> simp [writeBool]
    · rename_i h0 h1
      refine (Spells.throw _).congr fun b w => ⟨False.elim, ?_⟩
      rintro ⟨h, -⟩
      cases b
      · exact h0 (List.head_eq_of_cons_eq h).symm
      · exact h1 (List.head_eq_of_cons_eq h).symm
  constructor
  · rintro ⟨c, -, -, rfl, ⟨h, rfl⟩, rfl⟩
    rw [h, List.append_nil]
  · rintro rfl
    exact ⟨_, _, [], rfl, ⟨rfl, rfl⟩, (List.append_nil _).symm⟩

/-- There is a value only behind its tag, and a tag is never the start of another. -/
theorem spells_readOption {x : Decoder α} {fits : α → Prop} {write : α → Bytes}
    (hx : x.Spells fun a w => fits a ∧ w = write a) :
    (readOption x).Spells fun o w => (∀ a ∈ o, fits a) ∧ w = writeOption write o := by
  unfold readOption
  refine (spells_readByte.bind
    (g := fun c o w => (∀ a ∈ o, fits a) ∧ writeOption write o = c :: w) fun c => ?_).congr
    fun o w => ?_
  · split
    · refine (Spells.pure none).congr fun o w => ?_
      cases o <;> simp [writeOption, eq_comm]
    · refine (hx.bind_pure some).congr fun o w => ?_
      cases o <;> simp [writeOption, eq_comm]
    · rename_i h0 h1
      refine (Spells.throw _).congr fun o w => ⟨False.elim, ?_⟩
      rintro ⟨-, h⟩
      cases o
      · exact h0 (List.head_eq_of_cons_eq h).symm
      · exact h1 (List.head_eq_of_cons_eq h).symm
  constructor
  · rintro ⟨c, -, w, rfl, ⟨hfits, h⟩, rfl⟩
    exact ⟨hfits, h.symm⟩
  · rintro ⟨hfits, rfl⟩
    obtain ⟨c, w, h⟩ : ∃ c w, writeOption write o = c :: w := by cases o <;> simp [writeOption]
    exact ⟨c, [c], w, rfl, ⟨hfits, h⟩, h⟩

/-- A length that promises more than there is fails just as the reading of so many bytes does. -/
theorem readBlock_eq : readBlock = (readNumber 8 >>= readBytes) := by
  funext input
  rw [readBlock, bind_apply, bind_apply]
  cases readNumber 8 input with
  | error e => rfl
  | ok y =>
    obtain ⟨n, rest⟩ := y
    show (if rest.length < n then throw .ended else pure () >>= fun _ => readBytes n : Decoder Bytes)
      rest = readBytes n rest
    split
    · rename_i hshort
      rw [readBytes, Reader.splitExactly_eq_none_iff.2 hshort]
      rfl
    · rfl

/-- A byte string whose length is a number of eight bytes. -/
def BlockFits (bs : Bytes) : Prop := bs.length < 2 ^ 64

def TextFits (s : String) : Prop := BlockFits (Utf8.encode s)

theorem spells_readBlock : readBlock.Spells fun bs w => BlockFits bs ∧ w = writeBlock bs := by
  rw [readBlock_eq]
  refine ((spells_readNumber 8).bind spells_readBytes).congr fun bs w => ?_
  constructor
  · rintro ⟨_, _, _, ⟨hfits, rfl⟩, ⟨rfl, rfl⟩, rfl⟩
    exact ⟨hfits, rfl⟩
  · rintro ⟨hfits, rfl⟩
    exact ⟨bs.length, _, bs, ⟨hfits, rfl⟩, ⟨rfl, rfl⟩, rfl⟩

/-- Text has one form only. -/
theorem decode?_eq_some {bs : Bytes} {s : String} :
    Utf8.decode? bs = some s ↔ bs = Utf8.encode s := by
  constructor
  · intro h
    rw [Utf8.decode?, String.fromUTF8?] at h
    split at h
    · cases h
      simp [Utf8.encode, ByteArray.toList, Utf8.toList_loop, String.fromUTF8]
    · cases h
  · rintro rfl
    exact Utf8.decode_encode s

theorem spells_readText : readText.Spells fun s w => TextFits s ∧ w = writeText s := by
  unfold readText
  refine (spells_readBlock.bind (g := fun bs s w => bs = Utf8.encode s ∧ w = []) fun bs => ?_).congr
    fun s w => ?_
  · split
    · rename_i s hs
      obtain rfl := decode?_eq_some.1 hs
      refine (Spells.pure s).congr fun t w => and_congr_left fun _ => ⟨fun h => h ▸ rfl, fun h => ?_⟩
      exact Option.some.inj ((decode?_eq_some.2 h).symm.trans hs)
    · rename_i hnone
      have hnot : ∀ s, bs ≠ Utf8.encode s := fun s h => by
        rw [decode?_eq_some.2 h] at hnone
        cases hnone
      split
      all_goals exact (Spells.throw _).congr fun s w => ⟨False.elim, fun h => hnot s h.1⟩
  constructor
  · rintro ⟨bs, -, -, ⟨hfits, rfl⟩, ⟨rfl, rfl⟩, rfl⟩
    exact ⟨hfits, List.append_nil _⟩
  · rintro ⟨hfits, rfl⟩
    exact ⟨_, _, [], ⟨hfits, rfl⟩, ⟨rfl, rfl⟩, (List.append_nil _).symm⟩

/-! ## Artifacts -/

/-- The lengths in an artifact are numbers of eight bytes, as those of all that a machine can hold
are. -/
structure Fits (a : Artifact) : Prop where
  wasm : BlockFits a.wasm
  entry : TextFits a.entry
  memoryExport : ∀ s ∈ a.memoryExport, TextFits s

/-- What is read as an artifact is its encoding, field by field. -/
theorem spells_read : read.Spells fun a w => a.Fits ∧ w = a.encode := by
  have hword : readWord.Spells fun n w => True ∧ w = writeWord n :=
    spells_readWord.congr fun n w => by rw [true_and]
  have hmax : (readOption readWord).Spells fun o w => w = writeOption writeWord o :=
    (spells_readOption hword).congr fun o w => by simp
  refine (spells_readBlock.bind fun wasm => spells_readText.bind fun entry =>
    spells_readWord.bind fun min => hmax.bind fun max =>
    spells_readBool.bind fun isShared => spells_readBool.bind fun isImported =>
    (spells_readOption spells_readText).bind fun memoryExport =>
    spells_readHalf.bind fun address => spells_readHalf.bind_pure fun stackEnd =>
      (⟨wasm, entry, ⟨⟨min, max⟩, isShared, isImported⟩, memoryExport, ⟨address, stackEnd⟩⟩ :
        Artifact)).congr fun a w => ?_
  constructor
  · rintro ⟨wasm, _, _, ⟨hwasm, rfl⟩, ⟨entry, _, _, ⟨hentry, rfl⟩, ⟨min, _, _, rfl,
      ⟨max, _, _, rfl, ⟨isShared, _, _, rfl, ⟨isImported, _, _, rfl,
      ⟨memoryExport, _, _, ⟨hexport, rfl⟩, ⟨address, _, _, rfl, ⟨stackEnd, rfl, rfl⟩, rfl⟩,
      rfl⟩, rfl⟩, rfl⟩, rfl⟩, rfl⟩, rfl⟩, rfl⟩
    exact ⟨⟨hwasm, hentry, hexport⟩, by simp only [encode, List.append_assoc]⟩
  · rintro ⟨hfits, rfl⟩
    refine ⟨_, _, _, ⟨hfits.wasm, rfl⟩, ⟨_, _, _, ⟨hfits.entry, rfl⟩, ⟨_, _, _, rfl,
      ⟨_, _, _, rfl, ⟨_, _, _, rfl, ⟨_, _, _, rfl, ⟨_, _, _, ⟨hfits.memoryExport, rfl⟩,
      ⟨_, _, _, rfl, ⟨_, rfl, rfl⟩, rfl⟩, rfl⟩, rfl⟩, rfl⟩, rfl⟩, rfl⟩, rfl⟩, ?_⟩
    simp only [encode, List.append_assoc]

theorem decode_eq_ok {bytes : Bytes} {a : Artifact} :
    decode bytes = .ok a ↔ ∃ rest, read.run bytes = .ok (a, rest) := by
  unfold decode
  cases read.run bytes with
  | error e => simp [bind, Except.bind]
  | ok y => simp [bind, Except.bind, pure, Except.pure, Prod.ext_iff]

theorem decode_eq_ok_iff {bytes : Bytes} {a : Artifact} :
    decode bytes = .ok a ↔ a.Fits ∧ a.encode <+: bytes := by
  rw [decode_eq_ok]
  constructor
  · rintro ⟨rest, h⟩
    obtain ⟨_, ⟨hfits, rfl⟩, rfl⟩ := (spells_read.ok_iff ..).1 h
    exact ⟨hfits, List.prefix_append ..⟩
  · rintro ⟨hfits, rest, rfl⟩
    exact ⟨rest, (spells_read.ok_iff ..).2 ⟨_, ⟨hfits, rfl⟩, rfl⟩⟩

theorem decode_of_cut {front back : Bytes} {a : Artifact} (hfits : a.Fits)
    (hcut : a.encode = front ++ back) (hback : back ≠ []) : decode front = .error .ended := by
  have h : read.run front = .error .ended := spells_read.ended ⟨hfits, hcut.symm⟩ hback
  rw [decode, h]
  rfl

/-- The byte form of artifacts is canonical, and no form is the start of another.

What decodes to an artifact is its encoding with anything behind it: of a given artifact there is
one encoding, and what is left over is left untouched. So artifacts whose encodings start alike are
the same, and the bytes an artifact was read from are those it is written as. An encoding that is
cut short anywhere is refused, because its bytes ran out. -/
theorem encoding_canonical :
    (∀ (bytes : Bytes) (a : Artifact), decode bytes = .ok a ↔ a.Fits ∧ a.encode <+: bytes) ∧
    (∀ (a : Artifact) (rest : Bytes), a.Fits → decode (a.encode ++ rest) = .ok a) ∧
    (∀ (a b : Artifact), a.Fits → b.Fits → a.encode <+: b.encode → a = b) ∧
    (∀ (bytes rest : Bytes) (a : Artifact),
      read.run bytes = .ok (a, rest) → bytes = a.encode ++ rest) ∧
    (∀ (a : Artifact) (front : Bytes), a.Fits → front <+: a.encode → front ≠ a.encode →
      decode front = .error .ended) := by
  have hundo : ∀ (a : Artifact) (rest : Bytes), a.Fits → decode (a.encode ++ rest) = .ok a :=
    fun a rest hfits => decode_eq_ok_iff.2 ⟨hfits, List.prefix_append ..⟩
  refine ⟨fun bytes a => decode_eq_ok_iff, hundo, ?_, ?_, ?_⟩
  · rintro a b ha hb hprefix
    have hread : decode b.encode = .ok a := decode_eq_ok_iff.2 ⟨ha, hprefix⟩
    have hself : decode b.encode = .ok b := decode_eq_ok_iff.2 ⟨hb, List.prefix_rfl⟩
    exact Except.ok.inj (hread.symm.trans hself)
  · intro bytes rest a h
    obtain ⟨_, ⟨-, rfl⟩, rfl⟩ := (spells_read.ok_iff ..).1 h
    rfl
  · rintro a front hfits ⟨back, hcut⟩ hne
    refine decode_of_cut hfits hcut.symm fun hback => hne ?_
    rw [← hcut, hback, List.append_nil]

/-- An artifact whose export name is not plain text, with a byte behind its encoding and with its
last byte missing. -/
theorem encoding_canonical_of_shared_memory :
    let a : Artifact :=
      ⟨[0, 97, 115, 109], "tick", ⟨⟨1, some 2⟩, true, true⟩, some "mémoire", ⟨16, 64⟩⟩
    a.Fits ∧ decode (a.encode ++ [1]) = .ok a ∧
      (∀ b : Artifact, b.Fits → b.encode <+: a.encode → b = a) ∧
      decode a.encode.dropLast = .error .ended := by
  intro a
  have hfits : a.Fits := by
    refine ⟨show 4 < 2 ^ 64 by decide, ?_, ?_⟩
    · rw [TextFits, BlockFits, Utf8.length_encode]
      decide
    · rintro s ⟨⟩
      rw [TextFits, BlockFits, Utf8.length_encode]
      decide
  obtain ⟨-, hundo, hunique, -, hcut⟩ := encoding_canonical
  have hne : a.encode.dropLast ≠ a.encode := fun h => by
    have hlen := congrArg List.length h
    have hpos : 0 < a.encode.length := by simp [encode, writeBlock, LittleEndian.write]
    rw [List.length_dropLast] at hlen
    omega
  exact ⟨hfits, hundo a [1] hfits, fun b hb => hunique b a hb hfits,
    hcut a _ hfits (List.dropLast_prefix _) hne⟩

end MeteredWasm.Artifact
