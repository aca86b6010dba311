/-!
# The order of names

Names are listed in the order of their UTF-8 bytes, so that the order does not depend on a language.
-/

namespace StickyScroll.Text

def bytes (s : String) : List UInt8 := s.toByteArray.data.toList

theorem bytes_inj {a b : String} : bytes a = bytes b ↔ a = b := by
  rw [bytes, bytes, Array.toList_inj, ← ByteArray.ext_iff, String.toByteArray_inj]

-- `a` comes before `b` in the order of their bytes, or is `b`
def byteLe (a b : String) : Bool := decide (bytes a ≤ bytes b)

theorem byteLe_total (a b : String) : (byteLe a b || byteLe b a) = true := by
  rw [Bool.or_eq_true, byteLe, byteLe, decide_eq_true_eq, decide_eq_true_eq]
  exact Std.Total.total (bytes a) (bytes b)

theorem byteLe_trans (a b c : String) (hab : byteLe a b = true) (hbc : byteLe b c = true) :
    byteLe a c = true := by
  rw [byteLe, decide_eq_true_eq] at *
  exact List.le_trans hab hbc

end StickyScroll.Text
