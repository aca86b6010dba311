import StickyScroll.Json.Snapshot
import StickyScroll.Proofs.Json.Record

/-!
# Snapshots that are kept as text

Spans, handles and sticky lines are read back from their JSON text exactly as they were, field by
field, if their numbers fit in 64 bits; and the numbers of whatever is read from any text do. So a
text that can be read at all has a canonical form, which reads the same.
-/

namespace StickyScroll

open Json

namespace Json

/-- Values of a kind are kept as text: one whose numbers fit in 64 bits is read back as it was, and
is written again in the same way; whatever can be read from a text is such a value. -/
structure Kept {α : Type} (Storable : α → Prop) (encode : α → String)
    (decode : String → Except Defect α) : Prop where
  read_back : ∀ value, Storable value → decode (encode value) = .ok value
  written_again : ∀ value, Storable value → (decode (encode value)).map encode = .ok (encode value)
  canonical : ∀ text value, decode text = .ok value →
    Storable value ∧ decode (encode value) = .ok value

theorem readAll_of_recovers {α : Type} {read : List Char → Reading α} {written : List Char}
    {value : α} (h : Recovers read written value) :
    readAll read (String.ofList written) = .ok value := by
  have hread := h [] trivial
  rw [List.append_nil] at hread
  rw [readAll, String.toList_ofList, hread]
  rfl

theorem Yields.readAll {α : Type} {read : List Char → Reading α} {p : α → Prop} (h : Yields read p)
    {text : String} {value : α} (hvalue : readAll read text = .ok value) : p value := by
  unfold Json.readAll at hvalue
  split at hvalue
  next => cases hvalue
  next found _ hfound =>
    split at hvalue
    next =>
      cases hvalue
      exact h _ _ _ hfound
    next => cases hvalue

theorem kept_of_recovers {α : Type} {Storable : α → Prop} {write : α → List Char}
    {read : List Char → Reading α}
    (hback : ∀ value, Storable value → Recovers read (write value) value)
    (hyields : Yields read Storable) :
    Kept Storable (fun value => String.ofList (write value)) (readAll read) where
  read_back value h := readAll_of_recovers (hback value h)
  written_again value h := by rw [readAll_of_recovers (hback value h)]; rfl
  canonical text value h := by
    have hstorable := hyields.readAll h
    exact ⟨hstorable, readAll_of_recovers (hback value hstorable)⟩

end Json

/-! ## Spans and handles -/

/-- Both offsets fit in 64 bits. -/
def Span.Storable (s : Span) : Prop := s.start ≤ maxSignificand ∧ s.stop ≤ maxSignificand

def Handle.Storable (h : Handle) : Prop := h.id ≤ maxSignificand

theorem Span.recovers {s : Span} (h : s.Storable) : Recovers Span.read s.write s := by
  have hfills : Fills Span.fields {} [("start", writeNatural s.start), ("end", writeNatural s.stop)]
      ⟨some s.start, some s.stop⟩ :=
    .fill _ rfl rfl (recovers_field (recovers_natural h.1) _ _ _ _) <|
    .fill _ rfl rfl (recovers_field (recovers_natural h.2) _ _ _ _) <| .done _
  exact recovers_object hfills rfl

/-- The offsets that are known fit in 64 bits. -/
structure Span.Draft.Storable (draft : Span.Draft) : Prop where
  start : ∀ n, draft.start = some n → n ≤ maxSignificand
  stop : ∀ n, draft.stop = some n → n ≤ maxSignificand

theorem Span.yields : Yields Span.read Span.Storable := by
  have hfields : ∀ field ∈ Span.fields, field.Keeps Span.Draft.Storable := by
    simp only [Span.fields, List.forall_mem_cons, List.not_mem_nil, false_implies, implies_true,
      and_true]
    constructor
    · refine keeps_field yields_readNatural _ _ ?_
      intro draft n hdraft hn
      exact ⟨fun m hm => Option.some.inj hm ▸ hn, hdraft.stop⟩
    · refine keeps_field yields_readNatural _ _ ?_
      intro draft n hdraft hn
      exact ⟨hdraft.start, fun m hm => Option.some.inj hm ▸ hn⟩
  have hempty : ({} : Span.Draft).Storable := by
    constructor <;> (intro _ h; cases h)
  refine yields_readRecord hfields hempty ?_
  intro draft s hdraft hcomplete
  obtain ⟨start, hstart, hrest⟩ := Option.bind_eq_some_iff.1 hcomplete
  obtain ⟨stop, hstop, rfl⟩ := Option.map_eq_some_iff.1 hrest
  exact ⟨hdraft.start start hstart, hdraft.stop stop hstop⟩

theorem Handle.recovers {h : Handle} (hh : h.Storable) : Recovers Handle.read h.write h := by
  intro rest hrest
  rw [Handle.read, Handle.write, recovers_natural hh rest hrest]

theorem Handle.yields : Yields Handle.read Handle.Storable := by
  intro cs h rest hread
  unfold Handle.read at hread
  split at hread
  next => cases hread
  next hid =>
    cases hread
    exact yields_readNatural _ _ _ hid

/-! ## Sticky lines -/

/-- The numbers of the line fit in 64 bits; its texts are any. -/
structure StickyLine.Storable (line : StickyLine) : Prop where
  handle : line.handle.Storable
  span : line.span.Storable
  primaryLine : line.primaryLine ≤ maxSignificand
  scopeLine : line.scopeLine ≤ maxSignificand

theorem StickyLine.recovers {line : StickyLine} (h : line.Storable) :
    Recovers StickyLine.read line.write line := by
  have hfills : Fills StickyLine.fields {}
      [("document_id", writeString line.documentId), ("handle", line.handle.write),
        ("text_range", line.span.write), ("primary_line", writeNatural line.primaryLine),
        ("scope_line", writeNatural line.scopeLine),
        ("debug_text", writeOptionalString line.label)]
      ⟨some line.documentId, some line.handle, some line.span, some line.primaryLine,
        some line.scopeLine, some line.label⟩ :=
    .fill _ rfl rfl (recovers_field (recovers_string line.documentId) _ _ _ _) <|
    .fill _ rfl rfl (recovers_field (Handle.recovers h.handle) _ _ _ _) <|
    .fill _ rfl rfl (recovers_field (Span.recovers h.span) _ _ _ _) <|
    .fill _ rfl rfl (recovers_field (recovers_natural h.primaryLine) _ _ _ _) <|
    .fill _ rfl rfl (recovers_field (recovers_natural h.scopeLine) _ _ _ _) <|
    .fill _ rfl rfl (recovers_field (recovers_optionalString line.label) _ _ _ _) <| .done _
  exact recovers_object hfills rfl

/-- The numbers that are known fit in 64 bits. -/
structure StickyLine.Draft.Storable (draft : StickyLine.Draft) : Prop where
  handle : ∀ handle, draft.handle = some handle → handle.Storable
  span : ∀ span, draft.span = some span → span.Storable
  primaryLine : ∀ n, draft.primaryLine = some n → n ≤ maxSignificand
  scopeLine : ∀ n, draft.scopeLine = some n → n ≤ maxSignificand

theorem StickyLine.yields : Yields StickyLine.read StickyLine.Storable := by
  have hany {α : Type} (read : List Char → Reading α) : Yields read fun _ => True :=
    fun _ _ _ _ => trivial
  have hfields : ∀ field ∈ StickyLine.fields, field.Keeps StickyLine.Draft.Storable := by
    simp only [StickyLine.fields, List.forall_mem_cons, List.not_mem_nil, false_implies,
      implies_true, and_true]
    refine ⟨?_, ?_, ?_, ?_, ?_, ?_⟩
    · refine keeps_field (hany readString) _ _ ?_
      intro draft id hdraft _
      exact { hdraft with }
    · refine keeps_field Handle.yields _ _ ?_
      intro draft handle hdraft hhandle
      exact { hdraft with handle := fun _ h => Option.some.inj h ▸ hhandle }
    · refine keeps_field Span.yields _ _ ?_
      intro draft span hdraft hspan
      exact { hdraft with span := fun _ h => Option.some.inj h ▸ hspan }
    · refine keeps_field yields_readNatural _ _ ?_
      intro draft n hdraft hn
      exact { hdraft with primaryLine := fun _ h => Option.some.inj h ▸ hn }
    · refine keeps_field yields_readNatural _ _ ?_
      intro draft n hdraft hn
      exact { hdraft with scopeLine := fun _ h => Option.some.inj h ▸ hn }
    · refine keeps_field (hany readOptionalString) _ _ ?_
      intro draft label hdraft _
      exact { hdraft with }
  have hempty : ({} : StickyLine.Draft).Storable := by
    constructor <;> (intro _ h; cases h)
  refine yields_readRecord hfields hempty ?_
  intro draft line hdraft hcomplete
  obtain ⟨documentId, -, hrest⟩ := Option.bind_eq_some_iff.1 hcomplete
  obtain ⟨handle, hhandle, hrest⟩ := Option.bind_eq_some_iff.1 hrest
  obtain ⟨span, hspan, hrest⟩ := Option.bind_eq_some_iff.1 hrest
  obtain ⟨primaryLine, hprimary, hrest⟩ := Option.bind_eq_some_iff.1 hrest
  obtain ⟨scopeLine, hscope, rfl⟩ := Option.map_eq_some_iff.1 hrest
  exact ⟨hdraft.handle handle hhandle, hdraft.span span hspan,
    hdraft.primaryLine primaryLine hprimary, hdraft.scopeLine scopeLine hscope⟩

/-! ## The contract -/

/-- Sticky lines, spans and handles are kept as text without loss: whatever their numbers of 64
bits, also of a span that starts after it stops, whatever characters are in the document id and the
label, and whether there is a label, the text is read back as the very same value, equal in every
field, and that value is written as the same text again. Every text that can be read has such a
value, so writing the value down gives a text in a fixed form that reads the same. -/
theorem snapshots_round_trip :
    Kept StickyLine.Storable StickyLine.encode StickyLine.decode ∧
      Kept Span.Storable Span.encode Span.decode ∧
      Kept Handle.Storable Handle.encode Handle.decode :=
  ⟨kept_of_recovers (fun _ h => StickyLine.recovers h) StickyLine.yields,
    kept_of_recovers (fun _ h => Span.recovers h) Span.yields,
    kept_of_recovers (fun _ h => Handle.recovers h) Handle.yields⟩

/-- A line with the greatest numbers there are, whose span starts after it stops, of a document
whose id has a quote, a backslash, control characters and one beyond ASCII. -/
def oddLine : StickyLine :=
  ⟨"\"\\\n\x01é", ⟨maxSignificand⟩, ⟨maxSignificand, 3⟩, 0, 10, some "𝄞"⟩

-- the label is kept, and so is that there is none
theorem oddLine_round_trip :
    oddLine.encode =
      "\x7b\"document_id\":\"\\\"\\\\\\n\\u0001é\",\"handle\":18446744073709551615," ++
        "\"text_range\":\x7b\"start\":18446744073709551615,\"end\":3\x7d,\"primary_line\":0," ++
        "\"scope_line\":10,\"debug_text\":\"𝄞\"\x7d" ∧
    StickyLine.decode oddLine.encode = .ok oddLine ∧
    StickyLine.decode (StickyLine.encode { oddLine with label := none }) =
      .ok { oddLine with label := none } ∧
    Span.decode " [ 9, 3 ]" = .ok ⟨9, 3⟩ ∧ Span.decode (Span.encode ⟨9, 3⟩) = .ok ⟨9, 3⟩ ∧
    Handle.decode (Handle.encode ⟨maxSignificand⟩) = .ok ⟨maxSignificand⟩ := by
  have hnumbers : oddLine.handle.Storable ∧ oddLine.span.Storable ∧
      oddLine.primaryLine ≤ maxSignificand ∧ oddLine.scopeLine ≤ maxSignificand := by
    unfold Handle.Storable Span.Storable
    decide
  obtain ⟨hhandle, hspan, hprimary, hscope⟩ := hnumbers
  have hline : oddLine.Storable := ⟨hhandle, hspan, hprimary, hscope⟩
  have hunlabelled : StickyLine.Storable { oddLine with label := none } :=
    ⟨hhandle, hspan, hprimary, hscope⟩
  obtain ⟨lines, spans, handles⟩ := snapshots_round_trip
  have hpair : Span.decode " [ 9, 3 ]" = .ok ⟨9, 3⟩ := by decide +kernel
  refine ⟨by decide +kernel, lines.read_back _ hline, lines.read_back _ hunlabelled, hpair,
    (spans.canonical _ _ hpair).2, handles.read_back _ (Nat.le_refl _)⟩

end StickyScroll
