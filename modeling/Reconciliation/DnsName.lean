/-! A label has one to 63 small letters, digits and hyphens, and no hyphen at either end (RFC
1123). A subdomain is a sequence of labels with points between them, of at most 253 bytes. -/
namespace Reconciliation

def isLabelEnd (c : Char) : Bool := ('a' ≤ c && c ≤ 'z') || ('0' ≤ c && c ≤ '9')

def isLabelChar (c : Char) : Bool := isLabelEnd c || c = '-'

def isDnsLabelChars (cs : List Char) : Bool :=
  cs.length ≤ 63 && cs.head?.any isLabelEnd && cs.getLast?.any isLabelEnd && cs.all isLabelChar

def isDnsLabel (s : String) : Bool := isDnsLabelChars s.toList

def isDnsSubdomain (s : String) : Bool :=
  s.utf8ByteSize ≤ 253 && (s.toList.splitOn '.').all isDnsLabelChars

theorem point_not_mem_of_isDnsLabel {s : String} (h : isDnsLabel s) : '.' ∉ s.toList := by
  simp only [isDnsLabel, isDnsLabelChars, Bool.and_eq_true, List.all_eq_true] at h
  exact fun hm => absurd (h.2 _ hm) (by decide)

end Reconciliation
