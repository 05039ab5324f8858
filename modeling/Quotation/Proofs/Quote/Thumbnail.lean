import Quotation.Proofs.Store.Operation
import Quotation.Quote.Sending
import Quotation.Quote.Thumbnail

/-!
# Thumbnails are made once

What is first made of the file of a quoted attachment is what a quote and its copies show from then
on, be it nothing, whatever happens to the file. The invariant is that every copy has kept it.

* `Gallery`: files, a database, and the copies of a quote, with `Gallery.Event` for what may happen
  to them and `Gallery.run` for what is shown meanwhile;
* `Gallery.Settled`: every copy has kept a picture, with `Settled.next` for one event and
  `Settled.run` for all;
* `Quote.draw_eq_none`: attachments of which there is no thumbnail;
* `thumbnail_run_eq_first`.
-/

namespace Quotation

/-- A quote and its copies, beside the files and the database, which change meanwhile. -/
structure Gallery (Image : Type) where
  files : Files
  database : Store.Database
  copies : List (Quote Image)

namespace Gallery

/-- What may happen: the thumbnail of a copy is asked for, a copy is copied, the files become any
others, or an operation of the store is carried out. -/
inductive Event
  | ask (copy : Nat)
  | clone (copy : Nat)
  | files (after : Files)
  | store (op : Store.Operation)

variable {Image : Type} [Picture Image]

/-- What is shown at an event, if anything is, and what is there after it. -/
def next (g : Gallery Image) : Event → List (Option Image) × Gallery Image
  | .ask i =>
    match g.copies[i]? with
    | some q =>
      ([(q.thumbnail g.files).1], { g with copies := g.copies.set i (q.thumbnail g.files).2 })
    | none => ([], g)
  | .clone i => ([], { g with copies := g.copies ++ g.copies[i]?.toList })
  | .files after => ([], { g with files := after })
  | .store op => ([], { g with database := g.database.after op })

/-- All that is shown during some events, and what is there after them. -/
def run (g : Gallery Image) : List Event → List (Option Image) × Gallery Image
  | [] => ([], g)
  | e :: es => ((g.next e).1 ++ ((g.next e).2.run es).1, ((g.next e).2.run es).2)

/-- Whether every copy shows what a snapshot shows and has kept a picture of it, or that there is
none. -/
def Settled (s : Snapshot) (picture : Option Image) (g : Gallery Image) : Prop :=
  ∀ c ∈ g.copies, c.snapshot = s ∧ c.drawn = some picture

variable {s : Snapshot} {picture : Option Image} {g : Gallery Image}

/-- At no event is anything else shown, and every copy keeps the picture. -/
theorem Settled.next (h : g.Settled s picture) (e : Event) :
    (∀ r ∈ (g.next e).1, r = picture) ∧ (g.next e).2.Settled s picture := by
  cases e with
  | ask i =>
    rw [Gallery.next]
    split
    · rename_i q hq
      have hmem := List.mem_of_getElem? hq
      rw [Quote.thumbnail_of_drawn (h q hmem).2]
      refine ⟨fun r hr => List.mem_singleton.mp hr, fun c hc => ?_⟩
      rcases List.mem_or_eq_of_mem_set hc with hc | rfl
      · exact h c hc
      · exact h c hmem
    · exact ⟨List.forall_mem_nil _, h⟩
  | clone i =>
    refine ⟨List.forall_mem_nil _, fun c hc => ?_⟩
    rcases List.mem_append.mp hc with hc | hc
    · exact h c hc
    · exact h c (List.mem_of_getElem? (Option.mem_toList.mp hc))
  | files after => exact ⟨List.forall_mem_nil _, h⟩
  | store op => exact ⟨List.forall_mem_nil _, h⟩

theorem Settled.run (h : g.Settled s picture) (es : List Event) :
    (∀ r ∈ (g.run es).1, r = picture) ∧ (g.run es).2.Settled s picture := by
  induction es generalizing g with
  | nil => exact ⟨List.forall_mem_nil _, h⟩
  | cons e es ih =>
    obtain ⟨hshown, hnext⟩ := h.next e
    obtain ⟨hlater, hsettled⟩ := ih hnext
    refine ⟨fun r hr => ?_, hsettled⟩
    rcases List.mem_append.mp hr with hr | hr
    · exact hshown r hr
    · exact hlater r hr

end Gallery

namespace Quote

variable {Image : Type} [Picture Image] {q : Quote Image}

/-- Without a stream of an image there is no thumbnail, whatever the files hold. -/
theorem draw_eq_none (h : ∀ s ∈ q.snapshot.stream?, s.contentType.startsWith "image/" = false)
    (fs : Files) : q.draw fs = none := by
  rw [draw]
  cases hstream : q.snapshot.stream? with
  | none => rfl
  | some s =>
    have hother := h s hstream
    rw [Option.bind_some, AttachmentStream.thumbnail?, hother]
    rfl

end Quote

/-- The thumbnail of a quote is made when it is first asked for; from then on the quote and its
copies show it whenever they are asked, or show none if there was none, whatever happens to the
files and the database in between. There is none where there is no stream of an image. A quote that
was asked shows the same as before in all else, is sent as before, and is the same as the quotes
that it was the same as. -/
theorem thumbnail_run_eq_first {Image : Type} [Picture Image] (q : Quote Image) (g : Gallery Image)
    (hcopies : g.copies = [q]) (events : List Gallery.Event) :
    let first := (q.thumbnail g.files).1
    let shown := (g.run (.ask 0 :: events)).1
    let after := (g.run (.ask 0 :: events)).2
    shown.head? = some first ∧ (∀ r ∈ shown, r = first) ∧
    (q.drawn = none → first = q.draw g.files ∧
      ((∀ s ∈ q.snapshot.stream?, s.contentType.startsWith "image/" = false) → first = none)) ∧
    ∀ c ∈ after.copies, c.snapshot = q.snapshot ∧ c.snapshot.wire = q.snapshot.wire ∧
      ∀ other, c.sameAs other = q.sameAs other ∧ other.sameAs c = other.sameAs q := by
  intro first shown after
  have hfirst : g.next (.ask 0) = ([first], { g with copies := [(q.thumbnail g.files).2] }) := by
    rw [Gallery.next, hcopies]
    rfl
  have hsettled : (g.next (.ask 0)).2.Settled q.snapshot first := by
    rw [hfirst]
    intro c hc
    obtain rfl := List.mem_singleton.mp hc
    exact ⟨q.snapshot_thumbnail g.files, q.drawn_thumbnail g.files⟩
  have hshown : shown = first :: ((g.next (.ask 0)).2.run events).1 := by
    simp only [shown, Gallery.run, hfirst, List.singleton_append]
  obtain ⟨hlater, hafter⟩ := hsettled.run events
  refine ⟨?_, fun r hr => ?_, fun hfresh => ?_, fun c hc => ?_⟩
  · rw [hshown, List.head?_cons]
  · rw [hshown] at hr
    rcases List.mem_cons.mp hr with rfl | hr
    · rfl
    · exact hlater r hr
  · have hdraw : first = q.draw g.files := by
      simp only [first, Quote.thumbnail, hfresh]
    exact ⟨hdraw, fun hnone => hdraw.trans (Quote.draw_eq_none hnone g.files)⟩
  · have hsame := (hafter c hc).1
    refine ⟨hsame, congrArg Snapshot.wire hsame, fun other => ?_⟩
    rw [Quote.sameAs, Quote.sameAs, Quote.sameAs, Quote.sameAs, hsame]
    exact ⟨rfl, rfl⟩

/-- A file that comes to be there is not looked at again, and one that is taken away is not missed.
-/
theorem thumbnail_run_eq_first_other_file :
    let _ : Picture (List UInt8) := ⟨fun _ bytes => some bytes, fun _ => ⟨1, 1⟩, fun i _ => i⟩
    let stream : AttachmentStream :=
      ⟨⟨⟨.replicate 16 5⟩⟩, "image/png", none, 1, "p", .replicate 32 0⟩
    let content : Content := .attachment none none ⟨some "image/png", none, .stream stream⟩
    let q : Quote (List UInt8) := ⟨⟨7, ⟨⟨.replicate 16 2⟩, none⟩, false, content⟩, 200, none⟩
    let bare : Files := { workingDirectory := [] }
    let full : Files := { workingDirectory := [], entries := [(["p"], .bytes [1])] }
    let shown (before after : Files) : List (Option (List UInt8)) :=
      (Gallery.run ⟨before, .fresh, [q]⟩ [.ask 0, .clone 0, .files after, .ask 1, .ask 0]).1
    (shown bare full).head? = some none ∧ (∀ r ∈ shown bare full, r = none) ∧
    (shown full bare).head? = some (some [1]) ∧ ∀ r ∈ shown full bare, r = some [1] := by
  intro _ stream content q bare full shown
  have himage : "image/png".startsWith "image/" = true := by simp
  have hlocate (fs : Files) : fs.locate "p" = fs.follow fs.workingDirectory ["p"] :=
    Files.locate_of_relative (by decide) (by simp [Path.isAbsolute]) (by decide)
  have hdraw (fs : Files) : q.draw fs = (fs.picture? "p").map (Picture.thumbnail · 200) :=
    if_pos himage
  have hbare : q.draw bare = none := by
    rw [hdraw, Files.picture?, Files.readBytes, hlocate]
    rfl
  have hfull : q.draw full = some [1] := by
    rw [hdraw, Files.picture?, Files.readBytes, hlocate]
    rfl
  obtain ⟨hnoneFirst, hnone, -⟩ := thumbnail_run_eq_first q ⟨bare, .fresh, [q]⟩ rfl
    [.clone 0, .files full, .ask 1, .ask 0]
  obtain ⟨hsomeFirst, hsome, -⟩ := thumbnail_run_eq_first q ⟨full, .fresh, [q]⟩ rfl
    [.clone 0, .files bare, .ask 1, .ask 0]
  exact ⟨hnoneFirst.trans (congrArg some hbare), fun r hr => (hnone r hr).trans hbare,
    hsomeFirst.trans (congrArg some hfull), fun r hr => (hsome r hr).trans hfull⟩

end Quotation
