import MediaCatalog.Proofs.Catalog.Reachable
import MediaCatalog.Proofs.Search.Paging

/-!
Reading the catalog page by page. The assets in the order of their keys are what single lookups find, and the
pages of any length serve them.
-/

namespace MediaCatalog.Catalog

namespace Tables

variable {t : Tables} {rows : List AssetRow} {assets : List Asset}

/-- The assets that stand in rows of the tables. -/
def Lists (t : Tables) : List AssetRow → List Asset → Prop :=
  List.Forall₂ fun row asset => assetOf row (t.tagsOf row.key) = .ok asset

theorem assetOf_eq_ok_iff {row : AssetRow} {tags : List String} {asset : Asset} :
    assetOf row tags = .ok asset ↔ row.toAsset? tags = some asset := by
  rw [assetOf]
  cases row.toAsset? tags <;> simp

theorem key_of_assetOf {row : AssetRow} {tags : List String} {asset : Asset}
    (h : assetOf row tags = .ok asset) : asset.key = row.key :=
  AssetRow.key_of_toAsset (assetOf_eq_ok_iff.mp h)

theorem exists_lists (t : Tables) (hrows : ∀ row ∈ rows, row.DatesStored) : ∃ assets, t.Lists rows assets := by
  induction rows with
  | nil => exact ⟨[], .nil⟩
  | cons row rows ih =>
      obtain ⟨assets, hassets⟩ := ih fun row hrow => hrows row (List.mem_cons_of_mem _ hrow)
      obtain ⟨asset, hasset⟩ := AssetRow.exists_toAsset (hrows row List.mem_cons_self) (t.tagsOf row.key)
      exact ⟨asset :: assets, .cons (assetOf_eq_ok_iff.mpr hasset) hassets⟩

theorem Lists.map_eq {α : Type} {f : AssetRow → α} {g : Asset → α} (h : t.Lists rows assets)
    (hfg : ∀ row ∈ rows, ∀ asset, assetOf row (t.tagsOf row.key) = .ok asset → g asset = f row) :
    assets.map g = rows.map f := by
  induction h with
  | nil => rfl
  | @cons row asset rows assets hasset _ ih =>
      rw [List.map_cons, List.map_cons, hfg row List.mem_cons_self asset hasset,
        ih fun row hrow => hfg row (List.mem_cons_of_mem _ hrow)]

theorem Lists.map_key (h : t.Lists rows assets) : assets.map Asset.key = rows.map AssetRow.key :=
  h.map_eq fun _ _ _ hasset => key_of_assetOf hasset

theorem Lists.mem_iff (h : t.Lists rows assets) {asset : Asset} :
    asset ∈ assets ↔ ∃ row ∈ rows, assetOf row (t.tagsOf row.key) = .ok asset := by
  induction h with
  | nil => simp
  | cons hasset _ ih => simp [ih, hasset, eq_comm]

theorem Lists.ascending (h : t.Lists rows assets) (hrows : Ascending rows) :
    assets.Pairwise fun first second => first.key < second.key := by
  have hkeys : (rows.map AssetRow.key).Pairwise (· < ·) := List.pairwise_map.mpr hrows
  rw [← h.map_key] at hkeys
  exact List.pairwise_map.mp hkeys

theorem Lists.find (h : t.Lists rows assets) (key : String) :
    ((rows.find? fun row => row.key = key).mapM fun row => assetOf row (t.tagsOf key)) =
      .ok (assets.find? fun asset => asset.key = key) := by
  induction h with
  | nil => rfl
  | @cons row asset rows assets hasset _ ih =>
      have hkey := key_of_assetOf hasset
      by_cases hrow : row.key = key
      · rw [List.find?_cons_of_pos (by simpa using hrow), List.find?_cons_of_pos (by simpa [hkey] using hrow)]
        rw [hrow] at hasset
        change (assetOf row (t.tagsOf key)).map some = _
        rw [hasset]
        rfl
      · rw [List.find?_cons_of_neg (by simpa using hrow), List.find?_cons_of_neg (by simpa [hkey] using hrow)]
        exact ih

theorem Lists.get (h : t.Lists t.assets assets) (key : String) :
    t.get key = .ok (assets.find? fun asset => asset.key = key) :=
  h.find key

theorem Ascending.rowsAfter (h : Ascending t.assets) (cursor : Option String) :
    Ascending (t.rowsAfter cursor) :=
  h.sublist List.filter_sublist

theorem key_le_of_ascending (h : Ascending rows) {first last row : AssetRow} (hfirst : rows.head? = some first)
    (hlast : rows.getLast? = some last) (hrow : row ∈ rows) : first.key ≤ row.key ∧ row.key ≤ last.key := by
  constructor
  · obtain ⟨rest, rfl⟩ := List.head?_eq_some_iff.mp hfirst
    rcases List.mem_cons.mp hrow with rfl | hrow
    · exact String.le_refl _
    · exact le_of_lt ((List.pairwise_cons.mp h).1 row hrow)
  · obtain ⟨init, rfl⟩ := List.getLast?_eq_some_iff.mp hlast
    rcases List.mem_append.mp hrow with hrow | hrow
    · exact le_of_lt ((List.pairwise_append.mp h).2.2 row hrow last (List.mem_singleton_self last))
    · rw [List.mem_singleton.mp hrow]

theorem tagRange_eq_tagsOf (t : Tables) {first last key : String} (hfirst : first ≤ key)
    (hlast : key ≤ last) :
    ((t.tagRange first last).filter fun tag => tag.assetKey = key).map TagRow.tag = t.tagsOf key := by
  rw [tagRange, List.filter_filter, tagsOf]
  congr 1
  apply List.filter_congr
  intro tag _
  by_cases hkey : tag.assetKey = key
  · simp [hkey, hfirst, hlast]
  · simp [hkey]

theorem pageAssets_eq (hrows : Ascending rows) (h : t.Lists rows assets) :
    t.pageAssets rows = .ok assets := by
  rw [pageAssets]
  split
  · rename_i first last hfirst hlast
    have htags : ∀ row ∈ rows, ((t.tagRange first.key last.key).filter
        fun tag => tag.assetKey = row.key).map TagRow.tag = t.tagsOf row.key := by
      intro row hrow
      have hrange := key_le_of_ascending hrows hfirst hlast hrow
      exact t.tagRange_eq_tagsOf hrange.1 hrange.2
    apply Except.mapM_eq_ok_iff.mpr
    refine ((List.forall₂_and_left rows assets).mpr ⟨htags, h⟩).imp fun row asset hrow => ?_
    rw [hrow.1]
    exact hrow.2
  · rename_i hempty
    cases h with
    | nil => rfl
    | @cons row asset rows assets =>
        exact (hempty row _ rfl (List.getLast?_eq_some_getLast (List.cons_ne_nil row rows))).elim

theorem takeLimit_natCast (limit : Nat) (rows : List AssetRow) : takeLimit limit rows = rows.take limit := by
  rw [takeLimit, if_neg (by omega), Int.toNat_natCast]

theorem Ascending.takeLimit (h : Ascending rows) (limit : Int) : Ascending (takeLimit limit rows) := by
  rw [Tables.takeLimit]
  split_ifs
  · exact h
  · exact h.sublist (List.take_sublist _ _)

theorem page_of_lists {cursor : Option String} {limit : Int} (ht : Ascending t.assets)
    (h : t.Lists (takeLimit limit (t.rowsAfter cursor)) assets) :
    t.page cursor limit = .ok (assets, (assets.getLast?.map Asset.key).or cursor) := by
  have hpage := pageAssets_eq (Ascending.takeLimit (Ascending.rowsAfter ht cursor) limit) h
  have hkeys := congrArg List.getLast? h.map_key
  rw [List.getLast?_map, List.getLast?_map] at hkeys
  rw [page, hkeys]
  cases hlast : (takeLimit limit (t.rowsAfter cursor)).getLast? with
  | none =>
      have hempty := List.getLast?_eq_none_iff.mp hlast
      rw [hempty] at h
      cases h
      rfl
  | some last =>
      simp only [hpage, Except.ok_map, Option.map_some, Option.some_or]

/-- Behind the last row of a page the rest of the rows goes on. -/
theorem rowsAfter_last {cursor : Option String} {limit : Nat} {last : AssetRow} (ht : Ascending t.assets)
    (hlast : ((t.rowsAfter cursor).take limit).getLast? = some last) :
    t.rowsAfter (some last.key) = (t.rowsAfter cursor).drop limit := by
  have hrows := Ascending.rowsAfter ht cursor
  obtain ⟨init, hinit⟩ := List.getLast?_eq_some_iff.mp hlast
  have hmem : last ∈ t.rowsAfter cursor :=
    List.mem_of_mem_take (hinit ▸ List.mem_append_right init (List.mem_singleton_self last))
  rw [rowsAfter_of_mem hmem]
  have hmem_take : last ∈ (t.rowsAfter cursor).take limit :=
    hinit ▸ List.mem_append_right init (List.mem_singleton_self last)
  rw [← List.take_append_drop limit (t.rowsAfter cursor)] at hrows
  obtain ⟨htake, hdrop, hbetween⟩ := List.pairwise_append.mp hrows
  have hbefore : ((t.rowsAfter cursor).take limit).filter (fun other => last.key < other.key) = [] := by
    rw [List.filter_eq_nil_iff]
    intro other hother
    rw [decide_eq_true_eq, String.not_lt]
    rw [hinit] at hother htake
    rcases List.mem_append.mp hother with hother | hother
    · exact le_of_lt ((List.pairwise_append.mp htake).2.2 other hother last (List.mem_singleton_self last))
    · rw [List.mem_singleton.mp hother]
  have hbehind : ((t.rowsAfter cursor).drop limit).filter (fun other => last.key < other.key) =
      (t.rowsAfter cursor).drop limit := by
    rw [List.filter_eq_self]
    intro other hother
    rw [decide_eq_true_eq]
    exact hbetween last hmem_take other hother
  conv_lhs => rw [← List.take_append_drop limit (t.rowsAfter cursor)]
  rw [List.filter_append, hbefore, hbehind, List.nil_append]

theorem rowsAfter_next {cursor : Option String} {limit : Nat} (ht : Ascending t.assets) (hlimit : 1 ≤ limit)
    (h : t.Lists ((t.rowsAfter cursor).take limit) assets) :
    t.rowsAfter ((assets.getLast?.map Asset.key).or cursor) = (t.rowsAfter cursor).drop limit := by
  have hkeys := congrArg List.getLast? h.map_key
  rw [List.getLast?_map, List.getLast?_map] at hkeys
  rw [hkeys]
  cases hlast : ((t.rowsAfter cursor).take limit).getLast? with
  | none =>
      have hempty : t.rowsAfter cursor = [] := by
        rcases List.take_eq_nil_iff.mp (List.getLast?_eq_none_iff.mp hlast) with rfl | hempty
        · exact absurd hlimit (by decide)
        · exact hempty
      rw [Option.map_none, Option.none_or, hempty, List.drop_nil]
  | some last => exact rowsAfter_last ht hlast

end Tables

/-- Whether a catalog answers with the assets of a list, which stand in the order of their keys. -/
structure Connection.Holds (c : Connection) (assets : List Asset) : Prop where
  ascending : assets.Pairwise fun first second => first.key < second.key
  get : ∀ key, c.get key = .ok (assets.find? fun asset => asset.key = key)
  count : c.count = .ok assets.length
  fetch : c.fetch none (-1) = .ok (assets, assets.getLast?.map Asset.key)

theorem Connection.Holds.nodup {c : Connection} {assets : List Asset} (h : c.Holds assets) : assets.Nodup := by
  refine h.ascending.imp ?_
  rintro asset _ hlt rfl
  exact String.lt_irrefl _ hlt

theorem Tables.Sound.holds {t : Tables} (h : t.Sound) {c : Connection} (ht : c.working.tables = some t)
    {assets : List Asset} (hassets : t.Lists t.assets assets) : c.Holds assets := by
  constructor
  · exact hassets.ascending h.ascending
  · intro key
    rw [Connection.get, Connection.tablesFor, ht]
    exact hassets.get key
  · rw [Connection.count, Connection.tablesFor, ht, Except.ok_map, hassets.length_eq]
  · have hall : Tables.takeLimit (-1) (t.rowsAfter none) = t.assets := List.filter_eq_self.mpr fun _ _ => rfl
    have hpage : t.page none (-1) = .ok (assets, (assets.getLast?.map Asset.key).or none) :=
      Tables.page_of_lists h.ascending (hall.symm ▸ hassets)
    rw [Connection.fetch, ht]
    exact hpage.trans (by rw [Option.or_none])

theorem Connection.fetch_of_tables {c : Connection} {t : Tables} (ht : c.working.tables = some t) {limit : Nat}
    (hfits : limit ≤ 2 ^ 63 - 1) (cursor : Option String) : c.fetch cursor limit = t.page cursor limit := by
  have hinteger : fitsInteger limit := by
    simp only [fitsInteger, Bool.and_eq_true, decide_eq_true_eq]
    omega
  simp only [fetch, ht, hinteger, if_true]

/-- A catalog whose rows are in order serves the assets of its tables from every cursor on. -/
theorem serves_pages {c : Connection} {t : Tables} (ht : c.working.tables = some t) (hsound : t.Sound)
    {limit : Nat} (hlimit : 1 ≤ limit) (hfits : limit ≤ 2 ^ 63 - 1) {cursor : Option String}
    {assets : List Asset} (h : t.Lists (t.rowsAfter cursor) assets) :
    (c.pages limit).Serves limit assets cursor := by
  obtain ⟨n, hn⟩ : ∃ n, assets.length = n := ⟨_, rfl⟩
  induction n using Nat.strongRecOn generalizing cursor assets with
  | _ n ih =>
      have htaken : t.Lists ((t.rowsAfter cursor).take limit) (assets.take limit) := List.forall₂_take limit h
      have hpage : ∀ request, (c.pages limit).fetch request cursor =
          .ok (assets.take limit, ((assets.take limit).getLast?.map Asset.key).or cursor) := by
        intro request
        refine (Connection.fetch_of_tables ht hfits cursor).trans (Tables.page_of_lists hsound.ascending ?_)
        rwa [Tables.takeLimit_natCast]
      cases assets with
      | nil =>
          simp only [List.take_nil] at hpage
          exact .done hpage
      | cons asset rest =>
          refine .page (List.cons_ne_nil asset rest) hpage (ih _ ?_ ?_ rfl)
          · rw [← hn, List.length_drop, List.length_cons]
            omega
          · rw [Tables.rowsAfter_next hsound.ascending hlimit htaken]
            exact List.forall₂_drop limit h

end MediaCatalog.Catalog
