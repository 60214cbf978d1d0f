import SmeshDurable.Library.CanonicalBounds
import SmeshDurable.Library.MerkleTree
import SmeshDurable.Replay.Merge

/-!
# What canonical bytes and the Merkle root commit to

Two values with one canonical text are equal, and the bounded writer fails only for a number, for
the depth or for the length of the text. The root over the lines of a bundle determines the lines,
also against lists of another length.
-/

namespace SmeshDurable.Replay

open CanonicalJson Transaction

/-! ## Canonical bytes -/

/-- A value of the JSON library, whose objects are maps ordered by their keys. -/
structure JsonValue where
  value : Json
  sorted : SortedKeys value

theorem canonicalBounded_eq_ok {v : Json} {limit : Nat} {text : String} :
    canonicalBounded v limit = .ok text ↔ write limit maxCanonicalDepth 0 v "" = .ok text := by
  unfold canonicalBounded
  cases write limit maxCanonicalDepth 0 v "" with
  | ok out => simp only [reported, Except.ok.injEq]
  | error fault => cases fault <;> exact ⟨nofun, nofun⟩

/-- The canonical text determines the value, and it is written exactly for values without numbers
that are not too deep and whose text fits. -/
theorem canonical_exact (v w : JsonValue) (limit : Nat) :
    (∀ text, canonical v.value = .ok text → canonical w.value = .ok text → v = w) ∧
      ((∃ text, canonicalBounded v.value limit = .ok text) ↔
        NumberFree v.value ∧ height v.value ≤ 64 ∧ width (text v.value) ≤ limit) := by
  constructor
  · intro text hv hw
    rw [canonical, canonicalBounded_eq_ok] at hv hw
    have htext : CanonicalJson.text v.value = CanonicalJson.text w.value := by
      have hv' := writes_write 0 v.value "" text hv
      have hw' := writes_write 0 w.value "" text hw
      simpa using hv'.symm.trans hw'
    obtain ⟨value, hsorted⟩ := v
    obtain ⟨other, hother⟩ := w
    have heq : value = other :=
      text_injective (numberFree_of_write hv) (numberFree_of_write hw) hsorted hother htext
    subst heq
    rfl
  · simp only [canonicalBounded_eq_ok]
    exact write_isOk_iff v.value

theorem everywhere_pair {p : Json → Prop} (harr : p (.arr [.null, .str ""])) (hnull : p .null)
    (hstr : p (.str "")) : Everywhere p (.arr [.null, .str ""]) := by
  refine .arr _ harr ?_
  rw [List.forall_mem_cons, List.forall_mem_singleton]
  exact ⟨.null hnull, .str "" hstr⟩

/-- The nine bytes of a list of two values need a limit of nine. -/
theorem canonicalBounded_pair :
    (∃ text, canonicalBounded (.arr [.null, .str ""]) 9 = .ok text) ∧
      ¬ ∃ text, canonicalBounded (.arr [.null, .str ""]) 8 = .ok text := by
  let v : JsonValue := ⟨.arr [.null, .str ""], everywhere_pair trivial trivial trivial⟩
  have hwidth : width (text v.value) = 9 := by decide
  constructor
  · exact (canonical_exact v v 9).2.mpr
      ⟨everywhere_pair trivial trivial trivial, by decide, hwidth.le⟩
  · intro h
    have hle := ((canonical_exact v v 8).2.mp h).2.2
    omega

/-! ## The Merkle root -/

theorem hexBytes_digits (byte : UInt8) (rest : List Char) :
    hexBytes (Nat.digitChar (byte.toNat / 16) :: Nat.digitChar (byte.toNat % 16) :: rest) =
      byte :: hexBytes rest := by
  have hall : ∀ n ∈ List.range 256,
      UInt8.ofNat (16 * hexValue (Nat.digitChar ((UInt8.ofNat n).toNat / 16)) +
        hexValue (Nat.digitChar ((UInt8.ofNat n).toNat % 16))) = UInt8.ofNat n := by decide +kernel
  have hbyte := hall byte.toNat (List.mem_range.mpr byte.toNat_lt)
  rw [UInt8.ofNat_toNat] at hbyte
  rw [hexBytes, hbyte]

theorem formatDigest_injective : Function.Injective formatDigest := by
  have hread (bytes : Bytes) : hexBytes (bytes.flatMap fun byte =>
      [Nat.digitChar (byte.toNat / 16), Nat.digitChar (byte.toNat % 16)]) = bytes := by
    induction bytes with
    | nil => rfl
    | cons byte rest ih =>
      rw [List.flatMap_cons, List.cons_append, List.cons_append, List.nil_append, hexBytes_digits,
        ih]
  intro a b h
  unfold formatDigest at h
  have hdigits := congrArg String.toList h
  rw [String.toList_append, String.toList_append, List.append_cancel_left_eq, String.toList_ofList,
    String.toList_ofList] at hdigits
  rw [← hread a, hdigits, hread]

/-- The label and the parts hashed at one place of the tree. -/
def merkleInput : MerkleTree.Input Bytes Bytes → String × List Bytes
  | .leaf line => ("merkle-leaf", [line])
  | .node left right => ("merkle-node", [left, right])

theorem merkleInput_injective : Function.Injective merkleInput := by
  intro a b h
  cases a with
  | leaf line =>
    cases b with
    | leaf other =>
      simp only [merkleInput, Prod.mk.injEq, List.cons.injEq, and_true, true_and] at h
      rw [h]
    | node left right => simp [merkleInput] at h
  | node left right =>
    cases b with
    | leaf other => simp [merkleInput] at h
    | node left' right' =>
      simp only [merkleInput, Prod.mk.injEq, List.cons.injEq, and_true, true_and] at h
      rw [h.1, h.2]

section Merkle

variable [ContentDigest]

/-- The root over lines of any bytes. -/
def merkleRootOf (lines : List Bytes) : Except ReplayError String := do
  let root ← expect (merkleTop (lines.map fun line => hashRaw "merkle-leaf" [line])) .malformed
  .ok (formatDigest root)

theorem merkleRoot_eq (lines : List String) : merkleRoot lines = merkleRootOf (lines.map utf8) := by
  rw [merkleRoot, merkleRootOf, List.map_map]
  rfl

def merkleHash (input : MerkleTree.Input Bytes Bytes) : Bytes :=
  hashRaw (merkleInput input).1 (merkleInput input).2

/-- All labels and parts hashed for a root. -/
def merkleInputs (lines : List Bytes) : List (String × List Bytes) :=
  (MerkleTree.inputs merkleHash lines).map merkleInput

theorem merkleLevel_eq (level : List Bytes) :
    merkleLevel level = MerkleTree.level (fun a b => merkleHash (.node a b)) level := by
  fun_induction merkleLevel level with
  | case1 a b rest ih =>
    rw [MerkleTree.level, ih]
    rfl
  | case2 rest hshort => rw [MerkleTree.level]; exact hshort

theorem merkleTop_eq (level : List Bytes) :
    merkleTop level = MerkleTree.top (fun a b => merkleHash (.node a b)) level := by
  fun_induction merkleTop level with
  | case1 => rw [MerkleTree.top]
  | case2 root => rw [MerkleTree.top]
  | case3 a b rest ih => rw [ih, merkleLevel_eq, MerkleTree.top]

theorem merkleRootOf_eq_ok {lines : List Bytes} {text : String} :
    merkleRootOf lines = .ok text ↔
      ∃ root, MerkleTree.rootOf merkleHash lines = some root ∧ formatDigest root = text := by
  have htop : merkleTop (lines.map fun line => hashRaw "merkle-leaf" [line]) =
      MerkleTree.rootOf merkleHash lines := merkleTop_eq _
  simp only [merkleRootOf, htop, bind_eq_ok, expect_eq_ok, Except.ok.injEq]

variable {known : Set (String × List Bytes)}

/-- Every list of lines but the empty one has a root, and it binds the whole list: no other list,
of any length, has this root unless two of the hashed inputs collide. -/
theorem merkleRoot_binds (hinj : Set.InjOn (fun input => hashRaw input.1 input.2) known)
    {xs ys : List Bytes} (hx : xs ≠ []) (hy : ys ≠ [])
    (hxs : ∀ input ∈ merkleInputs xs, input ∈ known)
    (hys : ∀ input ∈ merkleInputs ys, input ∈ known) :
    (∃ root, merkleRootOf xs = .ok root) ∧ (merkleRootOf xs = merkleRootOf ys → xs = ys) := by
  obtain ⟨top, htop⟩ : ∃ top, MerkleTree.rootOf merkleHash xs = some top :=
    MerkleTree.top_isSome _ (mt List.map_eq_nil_iff.mp hx)
  have hroot := merkleRootOf_eq_ok.mpr ⟨top, htop, rfl⟩
  refine ⟨⟨_, hroot⟩, fun h => ?_⟩
  rw [hroot] at h
  obtain ⟨root, hys', hformat⟩ := merkleRootOf_eq_ok.mp h.symm
  have heq : MerkleTree.rootOf merkleHash xs = MerkleTree.rootOf merkleHash ys := by
    rw [htop, hys', formatDigest_injective hformat]
  have hhash : Set.InjOn merkleHash (Set.preimage merkleInput known) := by
    intro a ha b hb hab
    exact merkleInput_injective (hinj ha hb hab)
  refine MerkleTree.eq_of_rootOf hhash ?_ ?_ hx hy heq
  · intro input hinput
    exact hxs _ (List.mem_map_of_mem hinput)
  · intro input hinput
    exact hys _ (List.mem_map_of_mem hinput)

end Merkle

section Sample

attribute [local instance] checksumDigest

/-- Three lines, the last of which is promoted, and the first two of them. -/
theorem merkleRoot_binds_three :
    (∃ root, merkleRootOf [[97], [98], [99]] = .ok root) ∧
      (merkleRootOf [[97], [98], [99]] = merkleRootOf [[97], [98]] →
        ([[97], [98], [99]] : List Bytes) = [[97], [98]]) := by
  have hinputs : ∀ a ∈ merkleInputs [[97], [98], [99]] ++ merkleInputs [[97], [98]],
      ∀ b ∈ merkleInputs [[97], [98], [99]] ++ merkleInputs [[97], [98]],
        hashRaw a.1 a.2 = hashRaw b.1 b.2 → a = b := by
    simp only [merkleInputs, MerkleTree.inputs, MerkleTree.combined, MerkleTree.level,
      MerkleTree.neighbours, List.map_cons, List.map_nil]
    decide +kernel
  have hinj : Set.InjOn (fun input => hashRaw input.1 input.2)
      {input | input ∈ merkleInputs [[97], [98], [99]] ++ merkleInputs [[97], [98]]} := by
    intro a ha b hb hab
    exact hinputs a ha b hb hab
  apply merkleRoot_binds hinj (by decide) (by decide)
  · intro input hinput
    exact List.mem_append_left _ hinput
  · intro input hinput
    exact List.mem_append_right _ hinput

end Sample

end SmeshDurable.Replay
