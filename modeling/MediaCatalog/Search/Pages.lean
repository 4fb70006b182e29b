import MediaCatalog.Asset.Basic

/-!
Sources of assets that are read page by page. A page comes with a cursor that asks for the next one; an empty
page is the end.
-/

namespace MediaCatalog

/-- A source with cursors of type `κ` and errors of type `ε`. A request has a number, counted from zero, and
a cursor, which is absent from the first. What is ahead of a cursor goes down with every page that is not
empty, so that reading comes to an end. -/
structure PageSource (κ ε : Type) where
  fetch : (request : Nat) → (cursor : Option κ) → Except ε (List Asset × Option κ)
  ahead : Option κ → Nat
  ahead_lt : ∀ {request cursor page next}, fetch request cursor = .ok (page, next) → page ≠ [] →
    ahead next < ahead cursor

namespace PageSource

variable {κ ε : Type}

/-- The source that answers some requests and then fails. -/
def failAfter (answered : Nat) (error : ε) (source : PageSource κ ε) : PageSource κ ε where
  fetch request cursor :=
    if request < answered then source.fetch request cursor else .error error
  ahead := source.ahead
  ahead_lt hfetch := by
    split at hfetch
    · exact source.ahead_lt hfetch
    · simp at hfetch

/-- The number of elements from `start` to an end that is `length` elements on. An end that would be
negative is counted from the end of the `total` elements. -/
def sliceLength (total start : Nat) (length : Int) : Nat :=
  let stop := (start : Int) + length
  ((if stop < 0 then stop + total else stop) - start).toNat

/-- A list in pages of the given length, with the index of the next element for a cursor. -/
def ofList (assets : List Asset) (length : Int) : PageSource Nat ε where
  fetch _ cursor :=
    let start := cursor.getD 0
    let page := (assets.drop start).take (sliceLength assets.length start length)
    .ok (page, some (start + page.length))
  ahead cursor := assets.length - cursor.getD 0
  ahead_lt {_ cursor page next} hfetch hpage := by
    simp only [Except.ok.injEq, Prod.mk.injEq] at hfetch
    obtain ⟨rfl, rfl⟩ := hfetch
    have hpos := List.length_pos_iff.mpr hpage
    rw [List.length_take, List.length_drop] at hpos
    simp only [Option.getD_some, List.length_take, List.length_drop]
    omega

end PageSource

end MediaCatalog
