import ChainNode.Archive.FileName
import ChainNode.StableSort

/-!
# The segment directory

Which file covers which heights. The entries are ordered by their ranges, so that what is found does
not depend on the order in which the files were listed.
-/

namespace ChainNode.Archive

namespace SegmentEntry

/-- The range of `a` does not come after that of `b`: first heights count before last ones. -/
def rangeLE (a b : SegmentEntry) : Bool :=
  decide (a.first < b.first) || (decide (a.first = b.first) && decide (a.last ≤ b.last))

theorem rangeLE_trans (a b c : SegmentEntry) (hab : rangeLE a b) (hbc : rangeLE b c) :
    rangeLE a c := by
  simp only [rangeLE, Bool.or_eq_true, Bool.and_eq_true, decide_eq_true_eq, UInt32.lt_iff_toNat_lt,
    UInt32.le_iff_toNat_le, ← UInt32.toNat_inj] at *
  omega

theorem rangeLE_total (a b : SegmentEntry) : rangeLE a b ∨ rangeLE b a := by
  simp only [rangeLE, Bool.or_eq_true, Bool.and_eq_true, decide_eq_true_eq, UInt32.lt_iff_toNat_lt,
    UInt32.le_iff_toNat_le, ← UInt32.toNat_inj]
  omega

end SegmentEntry

structure Directory where
  entries : List SegmentEntry := []
deriving DecidableEq

namespace Directory

def ofEntries (entries : List SegmentEntry) : Directory := ⟨stableSort SegmentEntry.rangeLE entries⟩

/-- The first entry that covers `height`. -/
def find? (d : Directory) (height : UInt32) : Option SegmentEntry :=
  d.entries.find? (·.covers height)

/-- The highest height that any segment covers, 0 if there is no segment. -/
def lastHeight (d : Directory) : UInt32 := d.entries.foldl (fun h e => max h e.last) 0

def size (d : Directory) : Nat := d.entries.length

def isEmpty (d : Directory) : Bool := d.entries.isEmpty

end Directory
end ChainNode.Archive
