import Reconciliation.DnsName
import Reconciliation.Kind
import Reconciliation.Text

namespace Reconciliation

namespace Text

theorem splitOnce_append {sep : Char} {before : List Char} (h : sep ∉ before) (after : List Char) :
    splitOnce sep (before ++ sep :: after) = some (before, after) := by
  have hb : ∀ c ∈ before, (c != sep) = true := by
    intro c hc
    simp only [bne_iff_ne]
    rintro rfl
    exact h hc
  have hd : (before ++ sep :: after).dropWhile (· != sep) = sep :: after := by
    rw [List.dropWhile_append_of_pos hb, List.dropWhile_cons_of_neg (by simp)]
  have ht : (before ++ sep :: after).takeWhile (· != sep) = before := by
    rw [List.takeWhile_append_of_pos hb, List.takeWhile_cons_of_neg (by simp), List.append_nil]
  simp only [splitOnce, hd, ht]

/-- The parts of a text before, between and after its first two points. -/
def splitAtPoints (s : String) : Option (String × String × String) := do
  let (first, rest) ← splitOnce '.' s.toList
  let (second, third) ← splitOnce '.' rest
  return (String.ofList first, String.ofList second, String.ofList third)

end Text

namespace Kind

theorem ofToken?_token (k : Kind) : ofToken? k.token = some k := by
  cases k <;> decide

theorem token_injective {k k' : Kind} (h : k.token = k'.token) : k = k' := by
  have hk := ofToken?_token k'
  rw [← h, ofToken?_token] at hk
  exact Option.some.inj hk

theorem point_not_mem_token (k : Kind) : '.' ∉ k.token.toList := by
  cases k <;> decide

/-- The first point ends the token. -/
theorem splitOnce_internalName (k : Kind) (ns name : String) :
    Text.splitOnce '.' (k.internalName ns name).toList =
      some (k.token.toList, ns.toList ++ '.' :: name.toList) := by
  have hname : (k.internalName ns name).toList =
      k.token.toList ++ '.' :: (ns.toList ++ '.' :: name.toList) := by
    simp [internalName]
  rw [hname]
  exact Text.splitOnce_append (point_not_mem_token k) _

/-- The second one ends the namespace. -/
theorem splitAtPoints_internalName (k : Kind) {ns : String} (h : isDnsLabel ns = true)
    (name : String) :
    Text.splitAtPoints (k.internalName ns name) = some (k.token, ns, name) := by
  have hrest := Text.splitOnce_append (point_not_mem_of_isDnsLabel h) name.toList
  simp [Text.splitAtPoints, splitOnce_internalName, hrest]

/-- Names of records of different kinds differ, whatever their namespaces are. -/
theorem eq_of_internalName_eq {k k' : Kind} {ns ns' name name' : String}
    (h : k.internalName ns name = k'.internalName ns' name') : k = k' := by
  have hs := splitOnce_internalName k ns name
  rw [h, splitOnce_internalName] at hs
  simp only [Option.some.injEq, Prod.mk.injEq, String.toList_inj] at hs
  exact (token_injective hs.1).symm

end Kind

namespace Key

theorem internalName_ne_of_kind {a b : Key} (h : a.kind ≠ b.kind) :
    a.internalName ≠ b.internalName :=
  fun he => h (Kind.eq_of_internalName_eq he)

theorem internalName_injective {a b : Key} (ha : isDnsLabel a.ns = true)
    (hb : isDnsLabel b.ns = true) (h : a.internalName = b.internalName) : a = b := by
  obtain ⟨k, ns, name⟩ := a
  obtain ⟨k', ns', name'⟩ := b
  have hs := Kind.splitAtPoints_internalName k ha name
  have hname : k.internalName ns name = k'.internalName ns' name' := h
  rw [hname, Kind.splitAtPoints_internalName k' hb name'] at hs
  simp only [Option.some.injEq, Prod.mk.injEq] at hs
  obtain ⟨hk, rfl, rfl⟩ := hs
  rw [Kind.token_injective hk]

end Key

end Reconciliation
