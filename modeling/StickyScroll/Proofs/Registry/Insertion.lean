import StickyScroll.Proofs.Buffer.Commuting
import StickyScroll.Proofs.Registry.Listing

/-!
# Insertions keep the order

An insertion moves starts by one rule, stops by another, and empty spans by a third. Still, of two
anchors the one that is listed first stays first: starts that differ stay apart, spans that share a
start go on sharing it, and then so do the differences of their stops. So there is nothing to put in
order after an insertion, and what a query lists it lists in the same order, under the same handles
and labels.
-/

namespace StickyScroll

namespace Span

variable {s : Span}

theorem start_grow (s : Span) (n k : Nat) :
    (s.grow n k).start = if n ≤ s.start then s.start + k else s.start := rfl

-- the stop of an empty span moves as its start does
theorem stop_grow (hs : s.start ≤ s.stop) (n k : Nat) :
    (s.grow n k).stop = if n ≤ s.start ∨ n < s.stop then s.stop + k else s.stop := by
  obtain ⟨start, stop⟩ := s
  dsimp only at hs ⊢
  rcases place_cases start stop n with hn | ⟨hn, hn'⟩ | ⟨hn, hn'⟩
  · rw [grow_of_le hs hn, if_pos (Or.inl hn)]
  · rw [grow_of_between hn hn', if_pos (Or.inr hn')]
  · rw [grow_of_ge hs hn hn', if_neg (by omega)]

end Span

namespace Anchor

theorem before_grow {a c : Anchor} (ha : a.span.start ≤ a.span.stop)
    (hc : c.span.start ≤ c.span.stop) (h : a.before c = true) (n k : Nat) :
    (a.moved (·.grow n k)).before (c.moved (·.grow n k)) = true := by
  rw [before_iff] at h ⊢
  simp only [moved, Span.start_grow, Span.stop_grow ha, Span.stop_grow hc]
  rcases h with hstart | ⟨hstart, hstop | ⟨hstop, hhandle⟩⟩
  · -- starts that differ
    left
    split_ifs <;> omega
  · -- one start, and stops that differ
    rw [hstart]
    refine Or.inr ⟨rfl, Or.inl ?_⟩
    split_ifs <;> omega
  · -- one span
    rw [hstart, hstop]
    exact Or.inr ⟨rfl, Or.inr ⟨rfl, hhandle⟩⟩

theorem Ordered.grow {anchors : List Anchor} (h : Ordered anchors)
    (hforward : ∀ a ∈ anchors, a.span.start ≤ a.span.stop) (n k : Nat) :
    Ordered (anchors.map (·.moved (·.grow n k))) := by
  rw [Ordered, List.pairwise_map]
  refine List.Pairwise.imp_of_mem ?_ h
  intro a c ha hc hac
  exact before_grow (hforward a ha) (hforward c hc) hac n k

end Anchor

namespace Buffer

variable {b : Buffer}

-- anchors that are in order stay where they are
theorem arrange_of_ordered {anchors : List Anchor} (h : Anchor.Ordered anchors) :
    arrange anchors = anchors := by
  apply List.mergeSort_of_pairwise
  refine List.Pairwise.imp ?_ h
  intro a c hac
  rw [Anchor.before_iff] at hac
  rw [Anchor.le_iff]
  omega

/-- What an insertion leaves of the anchors is the old list with every span moved. -/
theorem anchors_insert (hb : b.WellFormed) {offset : Nat} (hoffset : Text.IsSeam b.text offset)
    (piece : List Char) :
    (b.insert offset piece).buffer.anchors =
      b.anchors.map (·.moved (·.grow offset (Text.size piece))) := by
  have hforward : ∀ a ∈ b.anchors, a.span.start ≤ a.span.stop := fun a ha => (hb.fits a ha).forward
  rcases insert_cases b offset piece with
    ⟨_, hnot, -⟩ | ⟨rfl, -, heq⟩ | ⟨before, after, -, -, -, heq⟩
  · exact absurd hoffset hnot
  · -- nothing is inserted, and nothing moves
    have hstill : ∀ a ∈ b.anchors, a.moved (·.grow offset 0) = a := by
      intro a ha
      rw [Anchor.moved, Span.grow_zero (hforward a ha)]
    rw [heq]
    exact ((List.map_congr_left hstill).trans (List.map_id _)).symm
  · have hall : b.anchors.filter (fun _ => true) = b.anchors :=
      List.filter_eq_self.2 fun _ _ => rfl
    rw [heq]
    show arrange ((b.anchors.filter fun _ => true).map _) = _
    rw [hall, arrange_of_ordered (hb.ordered.grow hforward offset _)]

/-- What a query lists stays the same while every span is moved: the handles and the labels, in
order. -/
theorem handles_and_labels_of_moved {ι : Type} (r : Registry ι) {b' : Buffer} (hb : b.WellFormed)
    (hb' : b'.WellFormed) {move : Span → Span} (h : b'.anchors = b.anchors.map (·.moved move))
    (filter : Option String) :
    (r.lines b' filter).map (fun line => (line.handle, line.label)) =
      (r.lines b filter).map fun line => (line.handle, line.label) := by
  have hreports : r.reports filter ∘ (·.moved move) = r.reports filter := rfl
  rw [r.lines_eq_map hb, r.lines_eq_map hb', h, List.filter_map, hreports, List.map_map,
    List.map_map, List.map_map]
  rfl

/-- An insertion between two characters is accepted and moves no anchor past another, in every
buffer that can be reached: the anchors with their spans moved are in order already, so putting them
in order changes nothing, and the handles are listed as before. Whatever records a registry has, and
whatever source it is asked for, it lists the same handles under the same labels in the same
order. -/
theorem insertion_keeps_order (id : String) (text : List Char) (changes : List Change) :
    let b := (ofText id text).after changes
    ∀ (offset : Nat) (piece : List Char), Text.IsSeam b.text offset →
      let put := b.insert offset piece
      let moved := b.anchors.map (·.moved (·.grow offset (Text.size piece)))
      put.result = .ok () ∧
      arrange moved = moved ∧ put.buffer.anchors = moved ∧
      put.buffer.anchors.map (·.handle) = b.anchors.map (·.handle) ∧
      ∀ (ι : Type) (r : Registry ι) (filter : Option String),
        (r.lines put.buffer filter).map (fun line => (line.handle, line.label)) =
          (r.lines b filter).map fun line => (line.handle, line.label) := by
  intro b offset piece hoffset put moved
  have hb : b.WellFormed := (wellFormed_ofText id text).after changes
  have hput : put.buffer.anchors = moved := anchors_insert hb hoffset piece
  have hforward : ∀ a ∈ b.anchors, a.span.start ≤ a.span.stop := fun a ha => (hb.fits a ha).forward
  refine ⟨(result_insert_eq_ok_iff piece).2 hoffset,
    arrange_of_ordered (hb.ordered.grow hforward offset _), hput, ?_, ?_⟩
  · rw [hput, List.map_map]
    rfl
  · intro ι r filter
    exact handles_and_labels_of_moved r hb (hb.insert offset piece) hput filter

-- anchors that stop at the place, start there, are empty there, and lie around it
theorem accents_in_order :
    let b := (ofText "a" ['h', 'é', 'l', 'l', 'o']).after
      [.create .sticky 1 3, .create .sticky 3 5, .create .sticky 3 3, .create .sticky 0 6]
    let r : Registry Nat := { (.empty : Registry Nat) with
      records := ⟨[(⟨1⟩, ⟨"outline", none⟩), (⟨3⟩, ⟨"outline", some "all"⟩)]⟩ }
    Text.IsSeam b.text 3 ∧
    (b.insert 3 ['é', 'x']).buffer.anchors.map (·.handle) = [⟨3⟩, ⟨0⟩, ⟨1⟩, ⟨2⟩] ∧
    (r.lines (b.insert 3 ['é', 'x']).buffer (some "outline")).map
      (fun line => (line.handle, line.label)) = [(⟨3⟩, some "all"), (⟨1⟩, none)] := by
  intro b r
  have hthree : Text.IsSeam b.text 3 := ⟨['h', 'é'], ['l', 'l', 'o'], rfl, rfl⟩
  obtain ⟨-, -, -, hhandles, hlines⟩ := insertion_keeps_order "a" ['h', 'é', 'l', 'l', 'o']
    [.create .sticky 1 3, .create .sticky 3 5, .create .sticky 3 3, .create .sticky 0 6] 3
    ['é', 'x'] hthree
  refine ⟨hthree, hhandles.trans ?_, (hlines Nat r (some "outline")).trans ?_⟩
  · decide +kernel
  · cbv

-- a cut can bring two starts together, and then the longer span comes first
example :
    let b := (ofText "a" ['a', 'b', 'c', 'd']).after [.create .sticky 0 3, .create .sticky 1 4]
    b.anchors.map (·.handle.id) = [0, 1] ∧
    (b.delete 0 1).buffer.anchors.map (·.handle.id) = [1, 0] := by cbv

end Buffer
end StickyScroll
