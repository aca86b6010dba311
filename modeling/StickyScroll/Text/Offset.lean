/-!
# Offsets into a text

A text is a list of characters, and a place in it is an offset counted in bytes of UTF-8. A text can
be cut only between two characters: `cut? n` gives the text before and after offset `n`, and gives
nothing when the offset lies inside a character or past the end.
-/

namespace StickyScroll.Text

def size : List Char → Nat
  | [] => 0
  | c :: cs => c.utf8Size + size cs

@[simp] theorem size_nil : size [] = 0 := rfl

@[simp] theorem size_cons (c : Char) (cs : List Char) : size (c :: cs) = c.utf8Size + size cs := rfl

@[simp] theorem size_append (cs ds : List Char) : size (cs ++ ds) = size cs + size ds := by
  induction cs with
  | nil => simp
  | cons c cs ih => simp only [List.cons_append, size_cons, ih]; omega

-- the text before and after an offset that lies between two characters
def cut? : List Char → Nat → Option (List Char × List Char)
  | cs, 0 => some ([], cs)
  | [], _ + 1 => none
  | c :: cs, n + 1 =>
      if n + 1 < c.utf8Size then none
      else (cut? cs (n + 1 - c.utf8Size)).map fun (before, after) => (c :: before, after)

@[simp] theorem cut?_zero (cs : List Char) : cut? cs 0 = some ([], cs) := by
  cases cs <;> rfl

theorem cut?_cons (c : Char) (cs : List Char) (n : Nat) :
    cut? (c :: cs) (c.utf8Size + n) =
      (cut? cs n).map fun (before, after) => (c :: before, after) := by
  have hc := c.utf8Size_pos
  obtain ⟨m, hm⟩ : ∃ m, c.utf8Size + n = m + 1 := ⟨c.utf8Size + n - 1, by omega⟩
  rw [hm, cut?, if_neg (by omega), ← hm, Nat.add_sub_cancel_left]

theorem cut?_append (cs ds : List Char) : cut? (cs ++ ds) (size cs) = some (cs, ds) := by
  induction cs with
  | nil => simp
  | cons c cs ih => rw [List.cons_append, size_cons, cut?_cons, ih]; rfl

-- a cut loses nothing, and the part before it is as long as the offset says
theorem eq_append_of_cut? {cs before after : List Char} {n : Nat}
    (h : cut? cs n = some (before, after)) : cs = before ++ after ∧ size before = n := by
  fun_induction cut? cs n generalizing before with
  | case1 cs => simp_all
  | case2 => simp at h
  | case3 => simp at h
  | case4 c cs n hn ih =>
    obtain ⟨⟨b, a⟩, hb, heq⟩ := Option.map_eq_some_iff.1 h
    simp only [Prod.mk.injEq] at heq
    obtain ⟨rfl, rfl⟩ := heq
    obtain ⟨rfl, hsize⟩ := ih hb
    simp only [List.cons_append, size_cons, true_and]
    omega

end StickyScroll.Text
