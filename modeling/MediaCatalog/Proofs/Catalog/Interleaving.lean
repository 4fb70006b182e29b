import MediaCatalog.Proofs.Calendar.Years
import MediaCatalog.Proofs.Catalog.Refinement
import Mathlib.Algebra.Order.BigOperators.Group.Finset

/-!
Reading the catalog page by page while it is written. Between two requests anything may be put, stored or deleted;
the assets that are read come in the order of their keys all the same, and none is missed that stays.
-/

namespace MediaCatalog.Catalog

namespace Tables

theorem length_rowsAfter_le (t : Tables) {cursor : Option String} {key : String} (hkey : isAfter cursor key) :
    (t.rowsAfter (some key)).length ≤ (t.rowsAfter cursor).length := by
  apply List.Sublist.length_le
  apply List.monotone_filter_right
  intro row hrow
  exact isAfter_of_lt hkey (by simpa [isAfter] using hrow)

end Tables

namespace Connection

theorem ahead_le (c : Connection) {cursor : Option String} {key : String} (hkey : Tables.isAfter cursor key) :
    c.ahead (some key) ≤ c.ahead cursor := by
  rw [ahead, ahead]
  split
  · exact le_rfl
  · rename_i t ht
    exact t.length_rowsAfter_le hkey

theorem exists_key_of_fetch {c : Connection} {cursor next : Option String} {limit : Int} {page : List Asset}
    (hfetch : c.fetch cursor limit = .ok (page, next)) (hpage : page ≠ []) :
    ∃ key, next = some key ∧ Tables.isAfter cursor key := by
  obtain ⟨t, _, hfetch⟩ := exists_tables_of_fetch hfetch
  obtain ⟨row, hrow, rfl⟩ := Tables.exists_row_of_page hfetch hpage
  exact ⟨row.key, rfl, (List.mem_filter.mp hrow).2⟩

/-- The catalog at a request, when behind each request comes what the schedule has to be written at its place. -/
def after (c : Connection) (schedule : List (List Write)) (request : Nat) : Connection :=
  c.performAll (schedule.take request).flatten

/-- What is ahead of a cursor at the requests up to the end of the schedule, all together. It goes down with every
page, though more may be ahead at a request than at the one before. -/
def aheadUnder (c : Connection) (schedule : List (List Write)) (cursor : Option String) : Nat :=
  ∑ request ∈ Finset.range (schedule.length + 1), (c.after schedule request).ahead cursor

theorem exists_after_eq (c : Connection) (schedule : List (List Write)) (request : Nat) :
    ∃ earlier ∈ Finset.range (schedule.length + 1), c.after schedule request = c.after schedule earlier := by
  refine ⟨min request schedule.length, Finset.mem_range.mpr (by omega), ?_⟩
  rw [after, after, List.take_eq_take_min]

theorem aheadUnder_lt {c : Connection} {schedule : List (List Write)} {limit : Int} {request : Nat}
    {cursor next : Option String} {page : List Asset}
    (hfetch : (c.after schedule request).fetch cursor limit = .ok (page, next)) (hpage : page ≠ []) :
    c.aheadUnder schedule next < c.aheadUnder schedule cursor := by
  obtain ⟨key, rfl, hkey⟩ := exists_key_of_fetch hfetch hpage
  obtain ⟨earlier, hearlier, heq⟩ := c.exists_after_eq schedule request
  apply Finset.sum_lt_sum
  · intro request _
    exact ahead_le _ hkey
  · exact ⟨earlier, hearlier, heq ▸ ahead_lt_of_fetch hfetch hpage⟩

/-- The catalog as a source of pages while it is written. -/
def pagesUnder (c : Connection) (schedule : List (List Write)) (limit : Int) : PageSource String CatalogError where
  fetch request cursor := (c.after schedule request).fetch cursor limit
  ahead := c.aheadUnder schedule
  ahead_lt := aheadUnder_lt

end Connection

/-- A page as it was read, with the cursor of its request and that of the next one. -/
structure Page where
  cursor : Option String
  assets : List Asset
  next : Option String

/-- What is read of a catalog at a request. -/
structure Page.IsRead (page : Page) (c : Connection) (limit : Nat) : Prop where
  fetch : c.fetch page.cursor limit = .ok (page.assets, page.next)
  next_eq : page.next = (page.assets.getLast?.map Asset.key).or page.cursor
  found : ∀ asset ∈ page.assets, c.get asset.key = .ok (some asset)
  short : page.assets.length < limit → ∀ key, Tables.isAfter page.next key → c.get key = .ok none

/-- The assets of a page are those of the catalog from its cursor up to the next one. -/
structure Page.Covers (page : Page) (c : Connection) : Prop where
  ascending : page.assets.Pairwise fun first second => first.key < second.key
  after : ∀ asset ∈ page.assets, Tables.isAfter page.cursor asset.key
  covered : ∀ key, c.get key ≠ .ok none → Tables.isAfter page.cursor key →
    (∃ asset ∈ page.assets, asset.key = key) ∨ Tables.isAfter page.next key

theorem exists_row_of_get {c : Connection} {t : Tables} (ht : c.working.tables = some t) (hsound : t.Sound)
    {key : String} (hget : c.get key ≠ .ok none) : ∃ row ∈ t.assets, row.key = key := by
  rw [Connection.get_of_tables ht hsound, Ne, Except.ok.injEq] at hget
  obtain ⟨asset, hasset⟩ := Option.ne_none_iff_exists'.mp hget
  obtain ⟨row, hrow, hkey, _⟩ := (Tables.record_eq_some_iff hsound.ascending).mp hasset
  exact ⟨row, hrow, hkey⟩

/-- The page with some assets, behind which the next one begins at the last key. -/
def Page.ofAssets (cursor : Option String) (assets : List Asset) : Page :=
  ⟨cursor, assets, (assets.getLast?.map Asset.key).or cursor⟩

section Lists

variable {c : Connection} {t : Tables} {limit : Nat} {cursor : Option String} {assets : List Asset}

theorem exists_row_of_mem_page (hassets : t.Lists ((t.rowsAfter cursor).take limit) assets) {asset : Asset}
    (hasset : asset ∈ assets) :
    ∃ row ∈ t.rowsAfter cursor, row.key = asset.key ∧ row.toAsset? (t.tagsOf row.key) = some asset := by
  obtain ⟨row, hrow, hread⟩ := hassets.mem_iff.mp hasset
  exact ⟨row, List.mem_of_mem_take hrow, (Tables.key_of_assetOf hread).symm, Tables.assetOf_eq_ok_iff.mp hread⟩

theorem isRead_ofAssets (ht : c.working.tables = some t) (hsound : t.Sound) (hlimit : 1 ≤ limit)
    (hfits : limit ≤ 2 ^ 63 - 1) (hassets : t.Lists ((t.rowsAfter cursor).take limit) assets) :
    (Page.ofAssets cursor assets).IsRead c limit := by
  refine ⟨?_, rfl, ?_, ?_⟩
  · refine (Connection.fetch_of_tables ht hfits cursor).trans (Tables.page_of_lists hsound.ascending ?_)
    rwa [Tables.takeLimit_natCast]
  · intro asset hasset
    obtain ⟨row, hrow, hkey, hread⟩ := exists_row_of_mem_page hassets hasset
    rw [Connection.get_of_tables ht hsound, Except.ok.injEq, Tables.record_eq_some_iff hsound.ascending, ← hkey]
    exact ⟨row, (List.mem_filter.mp hrow).1, rfl, hread⟩
  · -- No rows are left behind a short page.
    intro hshort key hkey
    by_contra hget
    obtain ⟨row, hrow, rfl⟩ := exists_row_of_get ht hsound hget
    have hbehind : row ∈ t.rowsAfter (Page.ofAssets cursor assets).next := List.mem_filter.mpr ⟨hrow, hkey⟩
    have hlength : min limit (t.rowsAfter cursor).length < limit := by
      rw [← List.length_take, hassets.length_eq]
      exact hshort
    rw [Page.ofAssets, Tables.rowsAfter_next hsound.ascending hlimit hassets, List.drop_eq_nil_of_le (by omega)]
      at hbehind
    exact absurd hbehind List.not_mem_nil

theorem covers_ofAssets (ht : c.working.tables = some t) (hsound : t.Sound) (hlimit : 1 ≤ limit)
    (hassets : t.Lists ((t.rowsAfter cursor).take limit) assets) : (Page.ofAssets cursor assets).Covers c := by
  constructor
  · exact hassets.ascending
      ((Tables.Ascending.rowsAfter hsound.ascending cursor).sublist (List.take_sublist limit _))
  · intro asset hasset
    obtain ⟨row, hrow, hkey, _⟩ := exists_row_of_mem_page hassets hasset
    rw [← hkey]
    exact (List.mem_filter.mp hrow).2
  · intro key hget hkey
    obtain ⟨row, hrow, rfl⟩ := exists_row_of_get ht hsound hget
    have hmem : row ∈ t.rowsAfter cursor := List.mem_filter.mpr ⟨hrow, hkey⟩
    rw [← List.take_append_drop limit (t.rowsAfter cursor), ← Tables.rowsAfter_next hsound.ascending hlimit hassets]
      at hmem
    rcases List.mem_append.mp hmem with hmem | hmem
    · left
      have hkeys : row.key ∈ assets.map Asset.key := hassets.map_key ▸ List.mem_map_of_mem hmem
      exact List.mem_map.mp hkeys
    · exact .inr (List.mem_filter.mp hmem).2

end Lists

theorem exists_page {c : Connection} (hsound : c.Sound) (htables : c.working.tables.isSome) {limit : Nat}
    (hlimit : 1 ≤ limit) (hfits : limit ≤ 2 ^ 63 - 1) (cursor : Option String) :
    ∃ page : Page, page.cursor = cursor ∧ page.IsRead c limit ∧ page.Covers c := by
  obtain ⟨t, ht⟩ := Option.isSome_iff_exists.mp htables
  have hsound := hsound.working t ht
  obtain ⟨assets, hassets⟩ : ∃ assets, t.Lists ((t.rowsAfter cursor).take limit) assets :=
    t.exists_lists fun row hrow => hsound.dates row (List.mem_filter.mp (List.mem_of_mem_take hrow)).1
  exact ⟨.ofAssets cursor assets, rfl, isRead_ofAssets ht hsound hlimit hfits hassets,
    covers_ofAssets ht hsound hlimit hassets⟩

namespace Page

variable {page : Page} {c : Connection} {limit : Nat}

/-- What comes behind a page that is not empty comes behind all of its assets. -/
theorem Covers.lt_of_isAfter (h : page.Covers c) (hread : page.IsRead c limit) {asset : Asset}
    (hasset : asset ∈ page.assets) {key : String} (hkey : Tables.isAfter page.next key) : asset.key < key := by
  obtain ⟨last, hlast⟩ : ∃ last, page.assets.getLast? = some last :=
    ⟨_, List.getLast?_eq_some_getLast (List.ne_nil_of_mem hasset)⟩
  rw [hread.next_eq, hlast, Option.map_some, Option.some_or, Tables.isAfter, Option.all_some, decide_eq_true_eq] at hkey
  obtain ⟨init, hinit⟩ := List.getLast?_eq_some_iff.mp hlast
  have hascending := h.ascending
  rw [hinit] at hasset hascending
  rcases List.mem_append.mp hasset with hasset | hasset
  · exact String.lt_trans
      ((List.pairwise_append.mp hascending).2.2 asset hasset last (List.mem_singleton_self last)) hkey
  · rw [List.mem_singleton.mp hasset]
    exact hkey

theorem Covers.isAfter_cursor (h : page.Covers c) (hread : page.IsRead c limit) (hne : page.assets ≠ [])
    {key : String} (hkey : Tables.isAfter page.next key) : Tables.isAfter page.cursor key := by
  obtain ⟨asset, hasset⟩ := List.exists_mem_of_ne_nil page.assets hne
  exact Tables.isAfter_of_lt (h.after asset hasset) (h.lt_of_isAfter hread hasset hkey)

end Page

namespace Connection

variable {c : Connection}

theorem isSome_tables_put (h : c.working.tables.isSome) (asset : Asset) :
    (c.put asset).2.working.tables.isSome := by
  obtain ⟨t, ht⟩ := Option.isSome_iff_exists.mp h
  rw [(put_of_tables ht asset).2]
  rfl

theorem isSome_tables_delete (h : c.working.tables.isSome) (key : String) :
    (c.delete key).2.working.tables.isSome := by
  obtain ⟨t, ht⟩ := Option.isSome_iff_exists.mp h
  rw [delete, ht]
  rfl

theorem isSome_tables_performAll (h : c.working.tables.isSome) (writes : List Write) :
    (c.performAll writes).working.tables.isSome := by
  induction writes generalizing c with
  | nil => exact h
  | cons write rest ih =>
      apply ih
      cases write with
      | put asset => exact isSome_tables_put h asset
      | store assets =>
          exact store_preserves (p := fun c => c.working.tables.isSome)
            (fun _ asset h => isSome_tables_put h asset) h assets
      | delete key => exact isSome_tables_delete h key

end Connection

/-- What is read from a request on, while the catalog is written according to a schedule. -/
structure ReadsFrom (c : Connection) (schedule : List (List Write)) (limit request : Nat)
    (cursor : Option String) (pages : List Page) : Prop where
  requests : ((c.pagesUnder schedule limit).readFrom request cursor).requests = pages.map Page.cursor
  outcome : ((c.pagesUnder schedule limit).readFrom request cursor).outcome = .ok (pages.flatMap Page.assets)
  isRead : ∀ (i : Nat) (page : Page), pages[i]? = some page → page.IsRead (c.after schedule (request + i)) limit
  ascending : (pages.flatMap Page.assets).Pairwise fun first second => first.key < second.key
  after : ∀ asset ∈ pages.flatMap Page.assets, Tables.isAfter cursor asset.key
  covered : ∀ key, Tables.isAfter cursor key →
    (∀ i < pages.length, (c.after schedule (request + i)).get key ≠ .ok none) →
    ∃ asset ∈ pages.flatMap Page.assets, asset.key = key

namespace ReadsFrom

variable {c : Connection} {schedule : List (List Write)} {limit request : Nat} {page : Page} {pages : List Page}

/-- An empty page is the last one, and nothing that is stored comes behind it. -/
theorem last (hlimit : 1 ≤ limit) (hread : page.IsRead (c.after schedule request) limit)
    (hcovers : page.Covers (c.after schedule request)) (hempty : page.assets = []) :
    ReadsFrom c schedule limit request page.cursor [page] := by
  have hfetch : (c.pagesUnder schedule limit).fetch request page.cursor = .ok ([], page.next) := hempty ▸ hread.fetch
  have hrun := PageSource.readFrom_of_end hfetch
  have hassets : [page].flatMap Page.assets = [] := by simpa using hempty
  constructor
  · rw [hrun]
    rfl
  · rw [hrun, hassets]
  · intro i later hlater
    cases i with
    | zero =>
        obtain rfl := Option.some.inj hlater
        exact hread
    | succ i => cases hlater
  · rw [hassets]
    exact List.Pairwise.nil
  · rw [hassets]
    exact fun _ hasset => absurd hasset List.not_mem_nil
  · intro key hkey hstored
    have hget := hstored 0 Nat.one_pos
    rcases hcovers.covered key hget hkey with ⟨asset, hasset, hkey⟩ | hbehind
    · exact ⟨asset, by simpa using hasset, hkey⟩
    · refine absurd (hread.short ?_ key hbehind) hget
      rw [hempty]
      exact hlimit

/-- A page that is not empty comes before the pages that are read behind the writes at its place. -/
theorem cons (hread : page.IsRead (c.after schedule request) limit) (hcovers : page.Covers (c.after schedule request))
    (hne : page.assets ≠ []) (hpages : ReadsFrom c schedule limit (request + 1) page.next pages) :
    ReadsFrom c schedule limit request page.cursor (page :: pages) := by
  have hfetch : (c.pagesUnder schedule limit).fetch request page.cursor = .ok (page.assets, page.next) := hread.fetch
  have hrun := PageSource.readFrom_of_page hfetch hne
  constructor
  · rw [hrun, List.map_cons, hpages.requests]
  · rw [hrun, hpages.outcome, List.flatMap_cons]
    rfl
  · intro i later hlater
    cases i with
    | zero =>
        obtain rfl := Option.some.inj hlater
        exact hread
    | succ i =>
        rw [Nat.add_comm i, ← Nat.add_assoc]
        exact hpages.isRead i later hlater
  · rw [List.flatMap_cons, List.pairwise_append]
    refine ⟨hcovers.ascending, hpages.ascending, ?_⟩
    intro asset hasset later hlater
    exact hcovers.lt_of_isAfter hread hasset (hpages.after later hlater)
  · intro asset hasset
    rw [List.flatMap_cons, List.mem_append] at hasset
    rcases hasset with hasset | hasset
    · exact hcovers.after asset hasset
    · exact hcovers.isAfter_cursor hread hne (hpages.after asset hasset)
  · intro key hkey hstored
    rw [List.flatMap_cons]
    rcases hcovers.covered key (hstored 0 (Nat.succ_pos _)) hkey with ⟨asset, hasset, hkey⟩ | hbehind
    · exact ⟨asset, List.mem_append_left _ hasset, hkey⟩
    · have hlater : ∀ i < pages.length, (c.after schedule (request + 1 + i)).get key ≠ .ok none := by
        intro i hi
        rw [Nat.add_assoc, Nat.add_comm 1]
        exact hstored (i + 1) (Nat.succ_lt_succ hi)
      obtain ⟨asset, hasset, hkey⟩ := hpages.covered key hbehind hlater
      exact ⟨asset, List.mem_append_right _ hasset, hkey⟩

end ReadsFrom

theorem exists_readsFrom {c : Connection} (h : Reachable c) (htables : c.working.tables.isSome)
    (schedule : List (List Write)) {limit : Nat} (hlimit : 1 ≤ limit) (hfits : limit ≤ 2 ^ 63 - 1) (request : Nat)
    (cursor : Option String) : ∃ pages, ReadsFrom c schedule limit request cursor pages := by
  induction request, cursor using (c.pagesUnder schedule limit).page_induction with
  | h request cursor ih =>
      have hsound := (h.performAll (schedule.take request).flatten).sound
      have htables := Connection.isSome_tables_performAll htables (schedule.take request).flatten
      obtain ⟨page, rfl, hread, hcovers⟩ := exists_page hsound htables hlimit hfits cursor
      by_cases hempty : page.assets = []
      · exact ⟨[page], .last hlimit hread hcovers hempty⟩
      · obtain ⟨pages, hpages⟩ := ih page.assets page.next hread.fetch hempty
        exact ⟨page :: pages, .cons hread hcovers hempty hpages⟩

/-- What is read of a catalog while it is written according to a schedule, in pages of at most `limit` assets. -/
structure ReadsUnder (c : Connection) (schedule : List (List Write)) (limit : Nat) (pages : List Page) : Prop where
  requests : (c.pagesUnder schedule limit).readAll.requests = pages.map Page.cursor
  outcome : (c.pagesUnder schedule limit).readAll.outcome = .ok (pages.flatMap Page.assets)
  first : pages.head?.map Page.cursor = some none
  following : ∀ (i : Nat) (page later : Page), pages[i]? = some page → pages[i + 1]? = some later →
    later.cursor = page.next
  isRead : ∀ (i : Nat) (page : Page), pages[i]? = some page → page.IsRead (c.after schedule i) limit
  ascending : (pages.flatMap Page.assets).Pairwise fun first second => first.key < second.key
  once : ∀ key, (∀ i < pages.length, (c.after schedule i).get key ≠ .ok none) →
    ((pages.flatMap Page.assets).map Asset.key).count key = 1

theorem ReadsFrom.readsUnder {c : Connection} {schedule : List (List Write)} {limit : Nat} {pages : List Page}
    (h : ReadsFrom c schedule limit 0 none pages) : ReadsUnder c schedule limit pages := by
  have hread : ∀ (i : Nat) (page : Page), pages[i]? = some page → page.IsRead (c.after schedule i) limit := by
    simpa only [Nat.zero_add] using h.isRead
  refine ⟨h.requests, h.outcome, ?_, ?_, hread, h.ascending, ?_⟩
  · rw [← List.head?_map, ← h.requests]
    exact PageSource.readFrom_requests_head _ 0 none
  · intro i page later hpage hlater
    have hrequest : ∀ (i : Nat) (page : Page), pages[i]? = some page →
        ((c.pagesUnder schedule limit).readFrom 0 none).requests[i]? = some page.cursor := by
      intro i page hpage
      rw [h.requests, List.getElem?_map, hpage, Option.map_some]
    obtain ⟨assets, _, hfetch⟩ := PageSource.fetch_of_requests _ 0 none i (hrequest i page hpage)
      (hrequest (i + 1) later hlater)
    rw [Nat.zero_add] at hfetch
    have hsame := hfetch.symm.trans (hread i page hpage).fetch
    exact (Prod.mk.inj (Except.ok.inj hsame)).2
  · intro key hstored
    obtain ⟨asset, hasset, rfl⟩ := h.covered key rfl (by simpa only [Nat.zero_add] using hstored)
    have hkeys : ((pages.flatMap Page.assets).map Asset.key).Pairwise (· < ·) := List.pairwise_map.mpr h.ascending
    exact List.count_eq_one_of_mem (hkeys.imp ne_of_lt) (List.mem_map_of_mem hasset)

/-- Reading a catalog page by page comes to its end in the order of the keys, and finds what stays there once,
whatever is written meanwhile. -/
theorem exists_readsUnder {c : Connection} (h : Reachable c) (htables : c.working.tables.isSome)
    (schedule : List (List Write)) {limit : Nat} (hlimit : 1 ≤ limit) (hfits : limit ≤ 2 ^ 63 - 1) :
    ∃ pages, ReadsUnder c schedule limit pages := by
  obtain ⟨pages, hpages⟩ := exists_readsFrom h htables schedule hlimit hfits 0 none
  exact ⟨pages, hpages.readsUnder⟩

theorem exists_readsUnder_deleted_cursor :
    let asset (key : String) := Asset.bare key (.newYear 2020 (by decide))
    let c := Connection.new.performAll [.store [asset "b", asset "a", asset "c"]]
    let schedule : List (List Write) := [[.delete "a", .put (asset "aa")], [.delete "c"]]
    Reachable c ∧ c.working.tables.isSome ∧ ∃ pages, ReadsUnder c schedule 1 pages ∧
      (pages.flatMap Page.assets).map Asset.key = ["a", "aa", "b"] := by
  intro asset c schedule
  have hc : Reachable c := Reachable.new.performAll _
  have htables : c.working.tables.isSome := Connection.isSome_tables_performAll rfl _
  obtain ⟨pages, hpages⟩ := exists_readsUnder hc htables schedule le_rfl (by decide)
  have hkeys := congrArg (Except.map (List.map Asset.key)) hpages.outcome
  exact ⟨hc, htables, pages, hpages, Except.ok.inj (hkeys.symm.trans (by decide +kernel +zetaReduce))⟩

end MediaCatalog.Catalog
