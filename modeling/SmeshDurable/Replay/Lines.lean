import SmeshDurable.Library.CanonicalBounds
import SmeshDurable.Library.TextLines
import SmeshDurable.Replay.Codec

/-!
# Lines of canonical text

An envelope and a bundle are texts of lines, each the canonical text of a value. Such a
text is split into its lines again, and a reader that reads canonical texts back gets the
values.
-/

namespace SmeshDurable.Replay

open CanonicalJson Transaction TextLines

/-! ## Canonical texts -/

section Canonical

variable {v : Json} {c : String}

theorem canonical_write (h : canonical v = .ok c) :
    write maxBytes maxCanonicalDepth 0 v "" = .ok c := by
  unfold canonical canonicalBounded at h
  exact reported_eq_ok.mp h

theorem canonical_toList (h : canonical v = .ok c) : c.toList = text v := by
  rw [writes_write _ _ _ _ (canonical_write h), String.toList_empty, List.nil_append]

theorem canonical_numberFree (h : canonical v = .ok c) : NumberFree v :=
  numberFree_of_write (canonical_write h)

theorem canonical_size (h : canonical v = .ok c) : c.utf8ByteSize = v.size := by
  rw [← width_text, ← canonical_toList h, width_toList]

/-- A document that is neither too long nor too deep has a canonical text. -/
theorem exists_canonical (hfree : NumberFree v) (hsize : v.size ≤ maxBytes)
    (hheight : height v ≤ maxCanonicalDepth) : ∃ c, canonical v = .ok c := by
  have hempty : ("" : String).utf8ByteSize = 0 := rfl
  have hneeds : Needs maxBytes (write maxBytes maxCanonicalDepth 0 v) v.size :=
    needs_write hfree (by omega)
  obtain ⟨c, hc, -⟩ := hneeds "" (by omega)
  refine ⟨c, ?_⟩
  unfold canonical canonicalBounded
  rw [reported_eq_ok, hc]

/-- The canonical text of a small document is as small. -/
theorem exists_canonical_le {n : Nat} (hfree : NumberFree v) (hsize : v.size ≤ n)
    (hn : n ≤ maxBytes) (hheight : height v ≤ maxCanonicalDepth) :
    ∃ c, canonical v = .ok c ∧ c.utf8ByteSize ≤ n := by
  obtain ⟨c, hc⟩ := exists_canonical hfree (hsize.trans hn) hheight
  exact ⟨c, hc, (canonical_size hc).trans_le hsize⟩

/-- Values with one canonical text are equal. -/
theorem canonical_injective {w : Json} (hv : SortedKeys v) (hw : SortedKeys w)
    (h : canonical v = .ok c) (h' : canonical w = .ok c) : v = w := by
  refine text_injective (canonical_numberFree h) (canonical_numberFree h') hv hw ?_
  rw [← canonical_toList h, canonical_toList h']

theorem canonical_ascii (h : canonical v = .ok c) {b : UInt8} (hb : b.toNat < 0x20) :
    b ∉ utf8 c := by
  intro hmem
  obtain ⟨d, hd, hval⟩ := exists_char_of_mem_bytes (by omega) hmem
  rw [canonical_toList h] at hd
  have hprintable := text_printable (canonical_numberFree h) d hd
  omega

/-- A canonical text starts with the character its kind of document starts with. -/
theorem canonical_head (h : canonical v = .ok c) :
    ∃ rest, utf8 c = String.utf8EncodeChar (lead v) ++ rest := by
  obtain ⟨tail, htail⟩ := text_lead (canonical_numberFree h)
  refine ⟨tail.flatMap String.utf8EncodeChar, ?_⟩
  show bytes c = _
  rw [bytes_eq, canonical_toList h, htail, List.flatMap_cons]

/-- No document starts with a byte order mark. -/
theorem encode_lead (v : Json) : ∃ b : UInt8, b ≠ 0xef ∧ String.utf8EncodeChar (lead v) = [b] := by
  cases v with
  | null => exact ⟨110, by decide, rfl⟩
  | bool value =>
    cases value with
    | false => exact ⟨102, by decide, rfl⟩
    | true => exact ⟨116, by decide, rfl⟩
  | num token => exact ⟨48, by decide, rfl⟩
  | str value => exact ⟨34, by decide, rfl⟩
  | arr items => exact ⟨91, by decide, rfl⟩
  | obj fields => exact ⟨123, by decide, rfl⟩

theorem canonical_ne_nil (h : canonical v = .ok c) : utf8 c ≠ [] := by
  obtain ⟨rest, hrest⟩ := canonical_head h
  obtain ⟨b, -, hb⟩ := encode_lead v
  rw [hrest, hb]
  simp

end Canonical

/-! ## Splitting -/

/-- A line that holds the canonical text of some value. -/
def IsCanonical (line : String) : Prop := ∃ v, canonical v = .ok line

theorem checkLines_eq_ok {maxLineBytes maxLines count : Nat} {lines : List Bytes}
    (hcount : count + lines.length ≤ maxLines)
    (hlines : ∀ line ∈ lines, line ≠ [] ∧ line.length ≤ maxLineBytes) :
    checkLines maxLineBytes maxLines count lines = .ok () := by
  induction lines generalizing count with
  | nil => rfl
  | cons line rest ih =>
    have hline := hlines line List.mem_cons_self
    rw [List.length_cons] at hcount
    have hrest : checkLines maxLineBytes maxLines (count + 1) rest = .ok () :=
      ih (by omega) fun l hl => hlines l (List.mem_cons_of_mem line hl)
    simp only [checkLines, bind_eq_ok, require_eq_ok]
    exact ⟨(), by omega, (), hline, hrest⟩

/-- Lines of canonical text are split as they were joined. -/
theorem strictLines_joined {lines : List String} {maxLineBytes maxLines : Nat}
    (hnonempty : lines ≠ []) (hcount : lines.length ≤ maxLines)
    (hlines : ∀ line ∈ lines, IsCanonical line ∧ line.utf8ByteSize ≤ maxLineBytes) :
    strictLines (utf8 (joined lines)) maxLineBytes maxLines = .ok (lines.map utf8) := by
  have hsplit : (utf8 (joined lines)).dropLast.splitOn 10 = lines.map utf8 := by
    apply splitOn_joined hnonempty
    intro line hline
    obtain ⟨⟨v, hv⟩, -⟩ := hlines line hline
    exact canonical_ascii hv (by decide)
  have hbytes : utf8 (joined lines) = lines.flatMap fun line => utf8 line ++ [10] :=
    bytes_joined lines
  have hlast : (utf8 (joined lines)).getLast? = some 10 := by
    obtain ⟨front, line, rfl⟩ := List.eq_nil_or_concat lines |>.resolve_left hnonempty
    rw [hbytes, List.concat_eq_append, List.flatMap_append, List.flatMap_singleton,
      ← List.append_assoc, List.getLast?_concat]
  have hreturn : 13 ∉ utf8 (joined lines) := by
    intro hmem
    rw [hbytes, List.mem_flatMap] at hmem
    obtain ⟨line, hline, hmem⟩ := hmem
    obtain ⟨⟨v, hv⟩, -⟩ := hlines line hline
    rcases List.mem_append.mp hmem with hmem | hmem
    · exact canonical_ascii hv (by decide) hmem
    · revert hmem
      decide
  have hmark : (utf8 (joined lines)).take 3 ≠ [0xef, 0xbb, 0xbf] := by
    cases lines with
    | nil => exact absurd rfl hnonempty
    | cons line rest =>
      obtain ⟨⟨v, hv⟩, -⟩ := hlines line List.mem_cons_self
      obtain ⟨tail, htail⟩ := canonical_head hv
      obtain ⟨b, hb, hlead⟩ := encode_lead v
      rw [hbytes, List.flatMap_cons, htail, hlead]
      intro heq
      exact hb (List.head_eq_of_cons_eq heq)
  have hcheck : checkLines maxLineBytes maxLines 0 (lines.map utf8) = .ok () := by
    apply checkLines_eq_ok
    · rw [List.length_map, Nat.zero_add]
      exact hcount
    · intro line hline
      obtain ⟨source, hsource, rfl⟩ := List.mem_map.mp hline
      obtain ⟨⟨v, hv⟩, hsize⟩ := hlines source hsource
      exact ⟨canonical_ne_nil hv, (length_bytes source).trans_le hsize⟩
  simp only [strictLines, bind_eq_ok, require_eq_ok, hsplit]
  exact ⟨(), ⟨hlast, hreturn, hmark⟩, (), hcheck, trivial⟩

/-! ## Reading -/

/-- A reader that reads canonical texts back. -/
class CanonicalReader extends JsonReader where
  read_canonical : ∀ {v : Json} {c : String}, SortedKeys v → canonical v = .ok c →
    read (utf8 c) = some v

theorem readLine_canonical [CanonicalReader] {v : Json} {c : String} (hsorted : SortedKeys v)
    (h : canonical v = .ok c) : readLine (utf8 c) = .ok v := by
  simp only [readLine, bind_eq_ok, expect_eq_ok, require_eq_ok]
  exact ⟨v, CanonicalReader.read_canonical hsorted h, c, h, (), rfl, rfl⟩

/-- There is such a reader: no two values have one canonical text. -/
@[reducible] noncomputable def canonicalReader : CanonicalReader where
  read bytes := open Classical in
    if h : ∃ v, SortedKeys v ∧ ∃ c, canonical v = .ok c ∧ utf8 c = bytes then some h.choose else none
  read_sortedKeys := by
    intro bytes v h
    split at h
    · rename_i hexists
      obtain rfl := Option.some.inj h
      exact hexists.choose_spec.1
    · cases h
  read_canonical := by
    intro v c hsorted hcanonical
    have hexists : ∃ w, SortedKeys w ∧ ∃ c', canonical w = .ok c' ∧ utf8 c' = utf8 c :=
      ⟨v, hsorted, c, hcanonical, rfl⟩
    rw [dif_pos hexists]
    obtain ⟨hsorted', c', hcanonical', hbytes⟩ := hexists.choose_spec
    obtain rfl := bytes_injective hbytes
    exact congrArg some (canonical_injective hsorted' hsorted hcanonical' hcanonical)

end SmeshDurable.Replay
