import MediaCatalog.Search.Scan
import MediaCatalog.Proofs.Outcomes

/-!
Reading a source page by page. The requests form a chain in which every cursor but the first is the one that
came with the page before, up to an empty page or an error. A source that serves a list in pages of a fixed
length is read completely, with one request for every page and one more for the end.
-/

namespace MediaCatalog

namespace PageSource

variable {κ ε : Type} {source : PageSource κ ε} {request : Nat} {cursor next : Option κ}

theorem readFrom_of_error {error : ε} (h : source.fetch request cursor = .error error) :
    source.readFrom request cursor = ⟨[cursor], .error error⟩ := by
  rw [readFrom]
  split
  · rename_i error' herror
    rw [h] at herror
    rw [Except.error.inj herror]
  · rename_i hpage
    rw [h] at hpage
    cases hpage

theorem readFrom_of_end (h : source.fetch request cursor = .ok ([], next)) :
    source.readFrom request cursor = ⟨[cursor], .ok []⟩ := by
  rw [readFrom]
  split
  · rename_i herror
    rw [h] at herror
    cases herror
  · rename_i page next' hpage
    rw [h] at hpage
    obtain ⟨rfl, rfl⟩ := Prod.mk.inj (Except.ok.inj hpage)
    rfl

theorem readFrom_of_page {page : List Asset} (h : source.fetch request cursor = .ok (page, next))
    (hpage : page ≠ []) :
    source.readFrom request cursor =
      ⟨cursor :: (source.readFrom (request + 1) next).requests,
        (source.readFrom (request + 1) next).outcome.map (page ++ ·)⟩ := by
  rw [readFrom]
  split
  · rename_i herror
    rw [h] at herror
    cases herror
  · rename_i page' next' hfetch
    rw [h] at hfetch
    obtain ⟨rfl, rfl⟩ := Prod.mk.inj (Except.ok.inj hfetch)
    rw [if_neg hpage]

theorem readFrom_cases (source : PageSource κ ε) (request : Nat) (cursor : Option κ) :
    (∃ error, source.fetch request cursor = .error error ∧
      source.readFrom request cursor = ⟨[cursor], .error error⟩) ∨
    (∃ next, source.fetch request cursor = .ok ([], next) ∧
      source.readFrom request cursor = ⟨[cursor], .ok []⟩) ∨
    ∃ page next, source.fetch request cursor = .ok (page, next) ∧ page ≠ [] ∧
      source.readFrom request cursor =
        ⟨cursor :: (source.readFrom (request + 1) next).requests,
          (source.readFrom (request + 1) next).outcome.map (page ++ ·)⟩ := by
  cases h : source.fetch request cursor with
  | error error => exact .inl ⟨error, rfl, readFrom_of_error h⟩
  | ok read =>
      obtain ⟨page, next⟩ := read
      by_cases hpage : page = []
      · subst hpage
        exact .inr (.inl ⟨next, rfl, readFrom_of_end h⟩)
      · exact .inr (.inr ⟨page, next, rfl, hpage, readFrom_of_page h hpage⟩)

theorem readFrom_requests_head (source : PageSource κ ε) (request : Nat) (cursor : Option κ) :
    (source.readFrom request cursor).requests.head? = some cursor := by
  rcases source.readFrom_cases request cursor with ⟨_, _, h⟩ | ⟨_, _, h⟩ | ⟨_, _, _, _, h⟩ <;> rw [h] <;> rfl

/-- Induction along the pages of a source. -/
theorem page_induction (source : PageSource κ ε) {motive : Nat → Option κ → Prop}
    (h : ∀ request cursor, (∀ page next, source.fetch request cursor = .ok (page, next) → page ≠ [] →
      motive (request + 1) next) → motive request cursor) (request : Nat) (cursor : Option κ) :
    motive request cursor := by
  -- What is ahead of the cursor goes down with every page.
  obtain ⟨n, hn⟩ : ∃ n, source.ahead cursor = n := ⟨_, rfl⟩
  induction n using Nat.strongRecOn generalizing request cursor with
  | _ n ih =>
      apply h request cursor
      intro page next hfetch hpage
      exact ih _ (hn ▸ source.ahead_lt hfetch hpage) (request + 1) next rfl

theorem fetch_of_requests (source : PageSource κ ε) (request : Nat) (cursor : Option κ) (i : Nat)
    {current following : Option κ}
    (hcurrent : (source.readFrom request cursor).requests[i]? = some current)
    (hfollowing : (source.readFrom request cursor).requests[i + 1]? = some following) :
    ∃ page, page ≠ [] ∧ source.fetch (request + i) current = .ok (page, following) := by
  induction request, cursor using source.page_induction generalizing i with
  | h request cursor ih =>
      rcases source.readFrom_cases request cursor with ⟨_, _, h⟩ | ⟨_, _, h⟩ | ⟨page, next, hfetch, hpage, h⟩
      · rw [h] at hfollowing
        simp at hfollowing
      · rw [h] at hfollowing
        simp at hfollowing
      · rw [h, List.getElem?_cons_succ] at hfollowing
        rw [h] at hcurrent
        cases i with
        | zero =>
            have hhead := source.readFrom_requests_head (request + 1) next
            rw [← List.head?_eq_getElem?, hhead] at hfollowing
            obtain rfl := Option.some.inj hcurrent
            obtain rfl := Option.some.inj hfollowing
            exact ⟨page, hpage, hfetch⟩
        | succ i =>
            rw [List.getElem?_cons_succ] at hcurrent
            have hstep := ih page next hfetch hpage i hcurrent hfollowing
            rwa [Nat.add_right_comm] at hstep

/-- A source that answers the first `i` requests like another one and then fails: nothing is asked of it behind
the failure, and nothing is kept of the pages before. -/
theorem readFrom_of_fault (source faulty : PageSource κ ε) (request : Nat) (cursor : Option κ) (i : Nat)
    {error : ε} (hi : i < (source.readFrom request cursor).requests.length)
    (hagree : ∀ j < i, ∀ current, (source.readFrom request cursor).requests[j]? = some current →
      faulty.fetch (request + j) current = source.fetch (request + j) current)
    (hfault : ∀ current, (source.readFrom request cursor).requests[i]? = some current →
      faulty.fetch (request + i) current = .error error) :
    faulty.readFrom request cursor =
      ⟨(source.readFrom request cursor).requests.take (i + 1), .error error⟩ := by
  induction request, cursor using source.page_induction generalizing i with
  | h request cursor ih =>
      have hhead := source.readFrom_requests_head request cursor
      rw [List.head?_eq_getElem?] at hhead
      cases i with
      | zero =>
          have hfirst : faulty.fetch request cursor = .error error := hfault cursor hhead
          rw [readFrom_of_error hfirst]
          rcases source.readFrom_cases request cursor with ⟨_, _, h⟩ | ⟨_, _, h⟩ | ⟨_, _, _, _, h⟩ <;>
            rw [h] <;> rfl
      | succ i =>
          rcases source.readFrom_cases request cursor with ⟨_, _, h⟩ | ⟨_, _, h⟩ | ⟨page, next, hfetch, hpage, h⟩
          · rw [h] at hi
            simp at hi
          · rw [h] at hi
            simp at hi
          · -- The first page is the same, and the failure is one request nearer behind it.
            have hfirst : faulty.fetch request cursor = source.fetch request cursor :=
              hagree 0 (Nat.succ_pos i) cursor hhead
            have hrest : faulty.readFrom (request + 1) next =
                ⟨(source.readFrom (request + 1) next).requests.take (i + 1), .error error⟩ := by
              refine ih page next hfetch hpage i ?_ (fun j hj current hcurrent => ?_) fun current hcurrent => ?_
              · rw [h] at hi
                simpa using hi
              · have hstep := hagree (j + 1) (by omega) current (by rw [h]; exact hcurrent)
                rwa [← Nat.add_assoc, Nat.add_right_comm] at hstep
              · have hstep := hfault current (by rw [h]; exact hcurrent)
                rwa [← Nat.add_assoc, Nat.add_right_comm] at hstep
            rw [readFrom_of_page (hfirst.trans hfetch) hpage, hrest, h]
            rfl

/-- A source hands out the rest of a list from a cursor on in pages of length `length`. -/
inductive Serves (source : PageSource κ ε) (length : Nat) : List Asset → Option κ → Prop where
  | done {cursor next : Option κ} (hfetch : ∀ request, source.fetch request cursor = .ok ([], next)) :
      Serves source length [] cursor
  | page {assets : List Asset} {cursor next : Option κ} (hassets : assets ≠ [])
      (hfetch : ∀ request, source.fetch request cursor = .ok (assets.take length, next))
      (hrest : Serves source length (assets.drop length) next) : Serves source length assets cursor

namespace Serves

variable {length : Nat} {assets : List Asset}

theorem outcome_eq (h : source.Serves length assets cursor) (hlength : 1 ≤ length) (request : Nat) :
    (source.readFrom request cursor).outcome = .ok assets := by
  induction h generalizing request with
  | done hfetch => rw [readFrom_of_end (hfetch request)]
  | @page assets cursor next hassets hfetch _ ih =>
      have hpage : assets.take length ≠ [] := by
        simp only [Ne, List.take_eq_nil_iff, hassets, or_false]
        omega
      rw [readFrom_of_page (hfetch request) hpage, ih, Except.ok_map, List.take_append_drop]

theorem length_requests (h : source.Serves length assets cursor) (hlength : 1 ≤ length)
    (request : Nat) :
    (source.readFrom request cursor).requests.length = (assets.length + length - 1) / length + 1 := by
  induction h generalizing request with
  | done hfetch =>
      rw [readFrom_of_end (hfetch request)]
      simp only [List.length_cons, List.length_nil, Nat.zero_add]
      rw [Nat.div_eq_of_lt (by omega)]
  | @page assets cursor next hassets hfetch _ ih =>
      have hpage : assets.take length ≠ [] := by
        simp only [Ne, List.take_eq_nil_iff, hassets, or_false]
        omega
      have hpos := List.length_pos_iff.mpr hassets
      rw [readFrom_of_page (hfetch request) hpage, List.length_cons, ih, List.length_drop]
      congr 1
      by_cases hshort : assets.length ≤ length
      · rw [Nat.sub_eq_zero_of_le hshort, Nat.div_eq_of_lt (by omega), Nat.div_eq_of_lt_le] <;> omega
      · have hsplit : assets.length + length - 1 = assets.length - length + length - 1 + length := by omega
        rw [hsplit, Nat.add_div_right _ (by omega)]

end Serves

theorem sliceLength_natCast (total start length : Nat) : sliceLength total start length = length := by
  have hstop : ¬ (start : Int) + length < 0 := by omega
  simp only [sliceLength, if_neg hstop]
  omega

theorem serves_ofList (assets : List Asset) {length : Nat} (hlength : 1 ≤ length)
    (cursor : Option Nat) :
    (ofList assets length : PageSource Nat ε).Serves length (assets.drop (cursor.getD 0)) cursor := by
  obtain ⟨n, hn⟩ : ∃ n, assets.length - cursor.getD 0 = n := ⟨_, rfl⟩
  induction n using Nat.strongRecOn generalizing cursor with
  | _ n ih =>
      generalize hstart : cursor.getD 0 = start at hn ⊢
      have hfetch : ∀ request, (ofList assets length : PageSource Nat ε).fetch request cursor =
          .ok ((assets.drop start).take length, some (start + ((assets.drop start).take length).length)) := by
        intro request
        simp only [ofList, hstart, sliceLength_natCast]
      by_cases hend : assets.drop start = []
      · rw [hend]
        rw [hend] at hfetch
        simp only [List.take_nil] at hfetch
        exact .done hfetch
      · refine .page hend hfetch ?_
        have hstart : start < assets.length := by
          rw [List.drop_eq_nil_iff] at hend
          omega
        have hrest : (assets.drop start).drop length =
            assets.drop (start + ((assets.drop start).take length).length) := by
          rw [List.drop_drop, List.length_take, List.length_drop]
          by_cases hshort : assets.length - start ≤ length
          · rw [Nat.min_eq_right hshort, List.drop_eq_nil_iff.mpr (by omega),
              List.drop_eq_nil_iff.mpr (by omega)]
          · rw [Nat.min_eq_left (by omega)]
        rw [hrest]
        refine ih _ ?_ (some _) rfl
        rw [Option.getD_some, List.length_take, List.length_drop]
        omega

end PageSource

end MediaCatalog
