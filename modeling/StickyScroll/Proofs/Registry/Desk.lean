import StickyScroll.Proofs.Registry.Query

/-!
# Desks

A desk is a buffer with the registries that keep records of it. The buffer is edited, anchors of any
marker are made and dropped in it directly, registries join, and each registry is changed, in any
order. `query_on_desk` says what a query finds at every moment of such a history.
-/

namespace StickyScroll

/-- A buffer and the registries of it. -/
structure Desk (ι : Type) where
  buffer : Buffer
  registries : List (Registry ι)

namespace Desk

variable {ι : Type}

-- a buffer without anchors, of which nobody keeps records
def ofText (id : String) (text : List Char) : Desk ι := ⟨Buffer.ofText id text, []⟩

/-- What can be done on a desk. -/
inductive Change (ι : Type) where
  -- a change of the buffer that goes past the registries
  | edit (change : Buffer.Change)
  -- one more registry, without records
  | join
  | act (place : Nat) (change : Registry.Change ι)

def apply (d : Desk ι) : Change ι → Desk ι
  | .edit change => { d with buffer := d.buffer.apply change }
  | .join => { d with registries := d.registries ++ [.empty] }
  | .act place change =>
      match d.registries[place]? with
      | none => d
      | some r =>
          { buffer := (r.perform d.buffer change).2
            registries := d.registries.set place (r.perform d.buffer change).1 }

def after (d : Desk ι) (changes : List (Change ι)) : Desk ι := changes.foldl apply d

@[simp] theorem after_cons (d : Desk ι) (change : Change ι) (rest : List (Change ι)) :
    d.after (change :: rest) = (d.apply change).after rest := rfl

theorem buffer_apply_eq_after {d : Desk ι} (hd : d.buffer.WellFormed) (change : Change ι) :
    ∃ changes : List Buffer.Change, (d.apply change).buffer = d.buffer.after changes := by
  cases change with
  | edit change => exact ⟨[change], rfl⟩
  | join => exact ⟨[], rfl⟩
  | act place change =>
    unfold apply
    dsimp only
    split
    next => exact ⟨[], rfl⟩
    next r _ => exact r.perform_store_eq_after hd change

-- whatever happens on a desk, to the buffer it is a list of changes
theorem buffer_after_eq_after {d : Desk ι} (hd : d.buffer.WellFormed) (changes : List (Change ι)) :
    ∃ bufferChanges : List Buffer.Change,
      (d.after changes).buffer = d.buffer.after bufferChanges := by
  induction changes generalizing d with
  | nil => exact ⟨[], rfl⟩
  | cons change rest ih =>
    obtain ⟨first, hfirst⟩ := buffer_apply_eq_after hd change
    have hwf : (d.apply change).buffer.WellFormed := by
      rw [hfirst]
      exact hd.after first
    obtain ⟨second, hsecond⟩ := ih hwf
    refine ⟨first ++ second, ?_⟩
    rw [after_cons, hsecond, hfirst, Buffer.after_append]

/-- At every moment, whatever records a registry has, a visitor that always wants more sees the
lines of a query in turn. They are one line for each sticky anchor that starts at or before the
limit and, if a source is asked for, is on record with that source; a line has the document's id,
the handle and the span of its anchor, the line numbers of the span's ends, and the label on record
or that of a zombie. They come by start, the outer first, then by handle. -/
theorem query_on_desk (id : String) (text : List Char) (changes : List (Change ι))
    (r : Registry ι) (filter : Option String) (limit : Nat) :
    let b := ((ofText id text).after changes).buffer
    let lines := r.query b filter limit
    (∀ (σ : Type) (visit : StickyLine → σ → Bool × σ) (s : σ),
      (∀ line s, (visit line s).1 = true) →
        visitWhile visit lines s = (true, lines.foldl (fun s line => (visit line s).2) s)) ∧
    (∀ line, line ∈ lines ↔
      ∃ a ∈ b.anchors, a.marker = .sticky ∧ a.span.start ≤ limit ∧
        (∀ source, filter = some source →
          ∃ record, r.records.find? a.handle = some record ∧ record.source = source) ∧
        line =
          { documentId := id
            handle := a.handle
            span := a.span
            primaryLine := RangeStore.lineOf b a.span.start
            scopeLine := RangeStore.lineOf b a.span.stop
            label :=
              match r.records.find? a.handle with
              | some record => record.label
              | none => some "StickyZombie" }) ∧
    (lines.map (·.handle)).Nodup ∧
    lines.Pairwise (fun x y =>
      x.span.start < y.span.start ∨
        (x.span.start = y.span.start ∧
          (y.span.stop < x.span.stop ∨
            (x.span.stop = y.span.stop ∧ x.handle.id < y.handle.id)))) := by
  intro b lines
  have hstart : (ofText id text : Desk ι).buffer.WellFormed := Buffer.wellFormed_ofText id text
  obtain ⟨bufferChanges, hbuffer⟩ := buffer_after_eq_after hstart changes
  have hb : b.WellFormed := by
    rw [show b = _ from hbuffer]
    exact hstart.after bufferChanges
  have hid : b.id = id := by
    rw [show b = _ from hbuffer]
    exact (Buffer.evolves_after hstart bufferChanges).id_eq
  refine ⟨?_, ?_, r.nodup_handles_query hb filter limit, r.pairwise_query hb filter limit⟩
  · intro σ visit s hvisit
    exact visitWhile_of_forall_true hvisit lines s
  · intro line
    have hshown : ∀ a : Anchor, r.shown b a =
        { documentId := id
          handle := a.handle
          span := a.span
          primaryLine := RangeStore.lineOf b a.span.start
          scopeLine := RangeStore.lineOf b a.span.stop
          label :=
            match r.records.find? a.handle with
            | some record => record.label
            | none => some "StickyZombie" } := by
      intro a
      rw [← hid]
      unfold Registry.shown
      cases r.records.find? a.handle <;> rfl
    have hmem : line ∈ lines ↔ ∃ a ∈ b.anchors, a.marker = .sticky ∧ a.span.start ≤ limit ∧
        r.Wants filter a ∧ line = r.shown b a :=
      Registry.mem_query_iff hb
    simp only [hshown] at hmem
    exact hmem

end Desk
end StickyScroll
