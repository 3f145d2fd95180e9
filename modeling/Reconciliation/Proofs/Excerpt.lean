import Reconciliation.Remote.Token

namespace Reconciliation

namespace Text.Utf8

variable {s t : String} {n : Nat}

theorem byteIdx_boundaryUpTo_le (s : String) (n : Nat) :
    (boundaryUpTo s n).offset.byteIdx ≤ n := by
  induction n with
  | zero => exact Nat.le_refl 0
  | succ n ih =>
    rw [boundaryUpTo]
    split
    · exact Nat.le_refl (n + 1)
    · exact Nat.le_succ_of_le ih

/-- No place within the bytes comes later. -/
theorem le_boundaryUpTo {p : s.Pos} (hp : p.offset.byteIdx ≤ n) : p ≤ boundaryUpTo s n := by
  induction n with
  | zero => exact String.Pos.le_iff.2 (String.Pos.Raw.le_iff.2 hp)
  | succ n ih =>
    rw [boundaryUpTo]
    split
    · exact String.Pos.le_iff.2 (String.Pos.Raw.le_iff.2 hp)
    · next hn =>
      have hne : p.offset.byteIdx ≠ n + 1 := by
        intro heq
        have hoffset : p.offset = ⟨n + 1⟩ := String.Pos.Raw.ext heq
        exact hn (hoffset ▸ p.isValid)
      exact ih (by omega)

/-- The character after the place reaches beyond the bytes, and it has at most four of them. -/
theorem le_byteIdx_boundaryUpTo (hn : n < s.utf8ByteSize) :
    n ≤ (boundaryUpTo s n).offset.byteIdx + 3 := by
  have hle := byteIdx_boundaryUpTo_le s n
  have hne : boundaryUpTo s n ≠ s.endPos := by
    intro heq
    rw [heq] at hle
    exact absurd hn (Nat.not_lt.2 hle)
  have hnext := String.Pos.byteIdx_offset_next (boundaryUpTo s n) hne
  have hsize := Char.utf8Size_le_four ((boundaryUpTo s n).get hne)
  have hbeyond : n < ((boundaryUpTo s n).next hne).offset.byteIdx := by
    refine Nat.lt_of_not_le fun hwithin => ?_
    exact absurd String.Pos.lt_next (Std.not_lt.2 (le_boundaryUpTo hwithin))
  omega

theorem splits_takeBytes (s : String) (n : Nat) :
    (boundaryUpTo s n).Splits (takeBytes n s) (s.sliceFrom (boundaryUpTo s n)).copy :=
  (boundaryUpTo s n).splits

theorem utf8ByteSize_takeBytes (s : String) (n : Nat) :
    (takeBytes n s).utf8ByteSize = (boundaryUpTo s n).offset.byteIdx := by
  rw [(splits_takeBytes s n).offset_eq_rawEndPos, String.byteIdx_rawEndPos]

/-- A prefix ends at a place between characters, so the last such place is not before it. -/
theorem exists_takeBytes_eq_append {front rest : String} (h : s = front ++ rest)
    (hn : front.utf8ByteSize ≤ n) : ∃ more, takeBytes n s = front ++ more := by
  let place : s.Pos := ⟨front.rawEndPos,
    String.Pos.Raw.isValid_iff_exists_append.2 ⟨front, rest, h, rfl⟩⟩
  have hplace : place.Splits front rest := ⟨h, rfl⟩
  obtain ⟨more, hmore, -⟩ :=
    (hplace.le_iff_exists_eq_append (splits_takeBytes s n)).1 (le_boundaryUpTo hn)
  exact ⟨more, hmore⟩

theorem isValid_iff_of_extract_eq (hs : n ≤ s.utf8ByteSize) (ht : n ≤ t.utf8ByteSize)
    (h : s.toByteArray.extract 0 n = t.toByteArray.extract 0 n) {m : Nat} (hm : m ≤ n) :
    String.Pos.Raw.IsValid s ⟨m⟩ ↔ String.Pos.Raw.IsValid t ⟨m⟩ := by
  have hfront : s.toByteArray.extract 0 m = t.toByteArray.extract 0 m := by
    have hextract := congrArg (·.extract 0 m) h
    simpa only [ByteArray.extract_extract, Nat.zero_add, Nat.min_eq_left hm] using hextract
  simp only [String.Pos.Raw.isValid_iff_isValidUTF8_extract_zero, String.Pos.Raw.le_iff,
    String.byteIdx_rawEndPos, hfront, Nat.le_trans hm hs, Nat.le_trans hm ht]

theorem byteIdx_boundaryUpTo_congr
    (h : ∀ m ≤ n, (String.Pos.Raw.IsValid s ⟨m⟩ ↔ String.Pos.Raw.IsValid t ⟨m⟩)) :
    (boundaryUpTo s n).offset.byteIdx = (boundaryUpTo t n).offset.byteIdx := by
  induction n with
  | zero => rfl
  | succ n ih =>
    have hlast := h (n + 1) (Nat.le_refl _)
    rw [boundaryUpTo, boundaryUpTo]
    by_cases hs : String.Pos.Raw.IsValid s ⟨n + 1⟩
    · rw [dif_pos hs, dif_pos (hlast.1 hs)]
    · rw [dif_neg hs, dif_neg (hs ∘ hlast.2)]
      exact ih fun m hm => h m (Nat.le_succ_of_le hm)

theorem takeBytes_congr (hs : n ≤ s.utf8ByteSize) (ht : n ≤ t.utf8ByteSize)
    (h : s.toByteArray.extract 0 n = t.toByteArray.extract 0 n) :
    takeBytes n s = takeBytes n t := by
  have hplace := byteIdx_boundaryUpTo_congr fun m hm => isValid_iff_of_extract_eq hs ht h hm
  have hle := byteIdx_boundaryUpTo_le s n
  have hextract := congrArg (·.extract 0 (boundaryUpTo s n).offset.byteIdx) h
  rw [← String.toByteArray_inj, (splits_takeBytes s n).toByteArray_left_eq,
    (splits_takeBytes t n).toByteArray_left_eq, ← hplace]
  simpa only [ByteArray.extract_extract, Nat.zero_add, Nat.min_eq_left hle] using hextract

end Text.Utf8

open Text.Utf8

theorem excerpt_of_long {body : String} (h : 200 < body.utf8ByteSize) :
    excerpt body = takeBytes 200 body ++ "... (truncated)" := if_neg (Nat.not_le.2 h)

/-- A body of at most 200 bytes is shown as it is. Of a longer one the longest prefix of whole
characters within 200 bytes is shown, which leaves out at most three of these, and another body
that begins with the same 200 bytes is shown as the same text. -/
theorem excerpt_exact (body : String) :
    (body.utf8ByteSize ≤ 200 → excerpt body = body) ∧
    (200 < body.utf8ByteSize →
      (∃ front rest : String, body = front ++ rest ∧
        excerpt body = front ++ "... (truncated)" ∧
        197 ≤ front.utf8ByteSize ∧ front.utf8ByteSize ≤ 200 ∧
        ∀ longer rest' : String, body = longer ++ rest' → longer.utf8ByteSize ≤ 200 →
          ∃ more, front = longer ++ more) ∧
      ∀ other : String, 200 < other.utf8ByteSize →
        other.toByteArray.extract 0 200 = body.toByteArray.extract 0 200 →
        excerpt other = excerpt body) := by
  refine ⟨fun h => if_pos h, fun h => ⟨?_, fun other hother hsame => ?_⟩⟩
  · have hleast := le_byteIdx_boundaryUpTo h
    have hmost := byteIdx_boundaryUpTo_le body 200
    rw [← utf8ByteSize_takeBytes] at hleast hmost
    exact ⟨_, _, (splits_takeBytes body 200).eq_append, excerpt_of_long h, by omega, hmost,
      fun _ _ => exists_takeBytes_eq_append⟩
  · have htake := takeBytes_congr (Nat.le_of_lt hother) (Nat.le_of_lt h) hsame
    rw [excerpt_of_long h, excerpt_of_long hother, htake]

namespace Small

def front : String := String.ofList (List.replicate 198 'x')

end Small

/-- The limit falls into the last character, so it is left out. Where the limit falls between two
characters, those that follow are. -/
theorem excerpt_exact_small : excerpt "refused" = "refused" ∧
    200 < (Small.front ++ "€").utf8ByteSize ∧
    excerpt (Small.front ++ "€") = Small.front ++ "... (truncated)" ∧
    excerpt (Small.front ++ "é" ++ "a") = excerpt (Small.front ++ "é" ++ "b") := by
  have hfront : Small.front.utf8ByteSize = 198 := by decide +kernel
  have heuro : 200 < (Small.front ++ "€").utf8ByteSize := by decide +kernel
  refine ⟨(excerpt_exact "refused").1 (by decide +kernel), heuro, ?_, ?_⟩
  · obtain ⟨front, rest, hbody, hexcerpt, -, hwithin, hlongest⟩ :=
      ((excerpt_exact (Small.front ++ "€")).2 heuro).1
    obtain ⟨more, rfl⟩ := hlongest Small.front "€" rfl (by omega)
    rw [String.utf8ByteSize_append, hfront] at hwithin
    have hlast : ['€'] = more.toList ++ rest.toList := by
      have heuro : "€".toList = ['€'] := by decide
      have hchars := congrArg String.toList hbody
      simpa only [String.toList_append, List.append_assoc, List.append_cancel_left_eq, heuro]
        using hchars
    rcases List.singleton_eq_append_iff.1 hlast with ⟨hmore, -⟩ | ⟨hmore, -⟩
    · rw [hexcerpt, String.toList_eq_nil_iff.1 hmore, String.append_empty]
    · -- the whole character does not fit
      obtain rfl : more = "€" := String.toList_injective hmore
      exact absurd hwithin (by decide +kernel)
  · have hsize : 200 = (Small.front ++ "é").toByteArray.size := by decide +kernel
    refine ((excerpt_exact (Small.front ++ "é" ++ "b")).2 (by decide +kernel)).2 _
      (by decide +kernel) ?_
    rw [String.toByteArray_append, String.toByteArray_append (s := Small.front ++ "é"),
      ByteArray.extract_append_eq_left hsize, ByteArray.extract_append_eq_left hsize]

end Reconciliation
