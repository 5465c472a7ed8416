/-
  PropertyGraph.Proofs.Catalog.Registry
  ─────────────────────────────────────
  **A CATALOG IS A MAP OF INDEPENDENT STORES WITH A SELECTOR.**

  A catalog keeps the current store apart and moves stores in and out of the
  parked ones.  Seen from outside it is a `Registry`: stores by their names,
  one of which is selected.  There, `select` moves the selector, and adds the
  store that is read if there was none; `reload` replaces one store by the one
  that is read, and selects it; an error changes nothing.

  The catalog does the same (`Proper.select`, `Proper.reload`), as long as the
  current store is not parked as well; and it stays so (`Proper`).
-/
import PropertyGraph.Proofs.Catalog.Residence

namespace PropertyGraph

/-! ## §1. Registries. -/

/-- Stores by their names, one of them selected. -/
@[ext]
structure Registry where
  stores : SortedMap String Store
  selected : String
  resident : (stores.find? selected).isSome = true

namespace Registry

variable {registry : Registry} {name : String} {store : Store}

/-- The selected store. -/
def current (registry : Registry) : Store :=
  (registry.stores.find? registry.selected).get registry.resident

/-- Another store is selected. -/
def choose (registry : Registry) (name : String)
    (h : (registry.stores.find? name).isSome = true) : Registry :=
  ⟨registry.stores, name, h⟩

/-- A store is put under a name and selected. -/
def take (registry : Registry) (name : String) (store : Store) : Registry where
  stores := registry.stores.insert name store
  selected := name
  resident := by rw [SortedMap.find?_insert_eq, if_pos rfl]; rfl

/-- Only this store. -/
def single (name : String) (store : Store) : Registry where
  stores := SortedMap.insert ∅ name store
  selected := name
  resident := by rw [SortedMap.find?_insert_eq, if_pos rfl]; rfl

/-- A store that is there is selected; one that is not is read first. -/
def select (registry : Registry) (storage : Option Storage) (disk : Disk) (name : String) :
    Except StorageError Registry :=
  match validateName name with
  | .error error => .error error
  | .ok () =>
    if h : (registry.stores.find? name).isSome then .ok (registry.choose name h)
    else (Catalog.read storage disk name).map (registry.take name)

/-- A store is read and selected. -/
def reload (registry : Registry) (storage : Option Storage) (disk : Disk) (name : String) :
    Except StorageError Registry :=
  match validateName name with
  | .error error => .error error
  | .ok () => (Catalog.read storage disk name).map (registry.take name)

/-- To take a store that is there is to select it. -/
theorem take_eq_choose (h : registry.stores.find? name = some store) :
    registry.take name store = registry.choose name (by rw [h]; rfl) := by
  refine Registry.ext ?_ rfl
  apply SortedMap.ext_find?
  intro sought
  show (registry.stores.insert name store).find? sought = _
  rw [SortedMap.find?_insert_eq]
  split
  next heq => rw [heq]; exact h.symm
  next => rfl

end Registry

/-! ## §2. The registry of a catalog. -/

namespace Catalog

variable {catalog after : Catalog} {disk : Disk} {name : String} {store : Store}

/-- The catalog, seen from outside. -/
def registry (catalog : Catalog) : Registry where
  stores := catalog.parked.insert catalog.currentName catalog.current
  selected := catalog.currentName
  resident := by rw [SortedMap.find?_insert_eq, if_pos rfl]; rfl

theorem find?_registry (catalog : Catalog) (name : String) :
    catalog.registry.stores.find? name = catalog.resident? name := rfl

theorem current_registry (catalog : Catalog) : catalog.registry.current = catalog.current :=
  Option.get_of_eq_some _ resident?_currentName

/-- The current store is not parked as well, and resident databases have
names that can be selected. -/
structure Proper (catalog : Catalog) : Prop where
  notParked : catalog.parked.find? catalog.currentName = none
  named : ∀ {name store}, catalog.resident? name = some store → validateName name = .ok ()

/-- **A registry determines the catalog**, up to its storage. -/
theorem Proper.eq_of_registry_eq {left right : Catalog} (hleft : left.Proper)
    (hright : right.Proper) (hregistry : left.registry = right.registry)
    (hstorage : left.storage = right.storage) : left = right := by
  have hname : left.currentName = right.currentName := congrArg Registry.selected hregistry
  have hcurrent : left.current = right.current := by
    rw [← current_registry, ← current_registry, hregistry]
  have hresident : ∀ name, left.resident? name = right.resident? name := fun name => by
    rw [← find?_registry, ← find?_registry, hregistry]
  have hparked : left.parked = right.parked := by
    apply SortedMap.ext_find?
    intro name
    by_cases hsame : name = left.currentName
    · rw [hsame, hleft.notParked, hname, hright.notParked]
    · have hfind := hresident name
      rwa [resident?_eq, resident?_eq, if_neg hsame, if_neg (hname ▸ hsame)] at hfind
  cases left
  cases right
  cases hname
  cases hcurrent
  cases hparked
  cases hstorage
  rfl

theorem Takes.registry (h : catalog.Takes after name store) :
    after.registry = catalog.registry.take name store := by
  refine Registry.ext ?_ h.currentName
  apply SortedMap.ext_find?
  intro sought
  show after.resident? sought = (catalog.registry.stores.insert name store).find? sought
  rw [h.resident?, SortedMap.find?_insert_eq, find?_registry]

theorem Takes.named (h : catalog.Takes after name store) (hproper : catalog.Proper)
    (hname : validateName name = .ok ()) {other : String} {found : Store}
    (hresident : after.resident? other = some found) : validateName other = .ok () := by
  rw [h.resident?] at hresident
  split at hresident
  next heq => rwa [heq]
  next => exact hproper.named hresident

theorem proper_makeCurrent (hproper : catalog.Proper) (hname : validateName name = .ok ())
    (hother : name ≠ catalog.currentName) : (catalog.makeCurrent name store).Proper where
  notParked := by
    show ((catalog.parked.erase name).insert catalog.currentName catalog.current).find? name = none
    rw [SortedMap.find?_insert_eq, if_neg hother, SortedMap.find?_erase_eq, if_pos rfl]
  named := (takes_makeCurrent catalog name store).named hproper hname

/-- The current store is replaced, and the others stay where they are. -/
theorem proper_withCurrent (hproper : catalog.Proper) (store : Store) :
    Proper { catalog with current := store } where
  notParked := hproper.notParked
  named := (takes_current catalog store).named hproper (hproper.named resident?_currentName)

/-! ## §3. Selecting and reading again. -/

/-- **Selecting does in the catalog what it does in the registry.** -/
theorem Proper.select (h : catalog.Proper) (disk : Disk) (name : String) :
    (catalog.select disk name).map Catalog.registry
        = catalog.registry.select catalog.storage disk name
      ∧ ∀ after, catalog.select disk name = .ok after →
          after.Proper ∧ after.storage = catalog.storage := by
  unfold Registry.select
  cases hname : validateName name with
  | error error =>
    rw [(not_selected_of_invalid hname).1]
    exact ⟨rfl, nofun⟩
  | ok =>
    dsimp only
    constructor
    · cases hselected : catalog.selected disk name with
      | error error =>
        rw [select_of_error hname hselected]
        unfold selected at hselected
        split at hselected
        next => cases hselected
        next hnone =>
          rw [dif_neg (by rw [find?_registry, hnone]; exact Bool.false_ne_true), hselected]
          rfl
      | ok store =>
        obtain ⟨after, hselect, htakes⟩ := takes_of_select hname hselected
        rw [hselect]
        show Except.ok after.registry = _
        rw [htakes.registry]
        unfold selected at hselected
        split at hselected
        next found hfound =>
          obtain rfl := Except.ok.inj hselected
          have hthere : catalog.registry.stores.find? name = some found := hfound
          rw [dif_pos (by rw [hthere]; rfl), Registry.take_eq_choose hthere]
        next hnone =>
          rw [dif_neg (by rw [find?_registry, hnone]; exact Bool.false_ne_true), hselected]
          rfl
    · intro after hafter
      rw [select_eq hname] at hafter
      split at hafter
      next =>
        obtain rfl := Except.ok.inj hafter
        exact ⟨h, rfl⟩
      next hother =>
        cases hselected : catalog.selected disk name with
        | error error =>
          rw [hselected] at hafter
          cases hafter
        | ok store =>
          rw [hselected] at hafter
          obtain rfl := Except.ok.inj hafter
          exact ⟨proper_makeCurrent h hname hother, rfl⟩

/-- **So does reading again.** -/
theorem Proper.reload (h : catalog.Proper) (disk : Disk) (name : String) :
    (catalog.reload disk name).map Catalog.registry
        = catalog.registry.reload catalog.storage disk name
      ∧ ∀ after, catalog.reload disk name = .ok after →
          after.Proper ∧ after.storage = catalog.storage := by
  unfold Registry.reload
  cases hname : validateName name with
  | error error =>
    rw [(not_selected_of_invalid hname).2]
    exact ⟨rfl, nofun⟩
  | ok =>
    cases hread : read catalog.storage disk name with
    | error error =>
      rw [reload_of_error hname hread]
      exact ⟨rfl, nofun⟩
    | ok store =>
      constructor
      · obtain ⟨after, hreload, htakes⟩ := takes_of_reload hname hread
        rw [hreload]
        exact congrArg Except.ok htakes.registry
      · intro after hafter
        unfold Catalog.reload at hafter
        rw [hname, hread] at hafter
        by_cases hcurrent : name = catalog.currentName
        · obtain rfl := Except.ok.inj ((if_pos hcurrent).symm.trans hafter)
          exact ⟨proper_withCurrent h store, rfl⟩
        · obtain rfl := Except.ok.inj ((if_neg hcurrent).symm.trans hafter)
          exact ⟨proper_makeCurrent h hname hcurrent, rfl⟩

/-- **Selecting a resident database moves the selector only.** -/
theorem Proper.select_resident (h : catalog.Proper) (disk : Disk)
    (hresident : catalog.resident? name = some store) :
    ∃ after, catalog.select disk name = .ok after ∧ after.Proper
      ∧ after.storage = catalog.storage ∧ after.currentName = name
      ∧ after.registry.stores = catalog.registry.stores := by
  obtain ⟨hregistry, hproper⟩ := h.select disk name
  have hthere : (catalog.registry.stores.find? name).isSome = true := by
    rw [find?_registry, hresident]
    rfl
  unfold Registry.select at hregistry
  rw [h.named hresident] at hregistry
  dsimp only at hregistry
  rw [dif_pos hthere] at hregistry
  cases hselect : catalog.select disk name with
  | error error =>
    rw [hselect] at hregistry
    cases hregistry
  | ok after =>
    rw [hselect] at hregistry
    have hafter := Except.ok.inj hregistry
    obtain ⟨hproper, hstorage⟩ := hproper after hselect
    refine ⟨after, rfl, hproper, hstorage, congrArg Registry.selected hafter, ?_⟩
    rw [hafter]
    rfl

/-- What is opened holds one database, read under the name in the settings. -/
theorem exists_of_open {settings : Settings} {opened : Disk}
    (h : Catalog.open settings disk = (opened, .ok catalog)) :
    validateName settings.defaultDatabase = .ok ()
      ∧ ∃ store storage, read storage opened settings.defaultDatabase = .ok store
        ∧ catalog = ⟨settings.defaultDatabase, store, ∅, storage⟩ := by
  unfold Catalog.open at h
  split at h
  next => cases h
  next hname =>
    refine ⟨hname, ?_⟩
    dsimp only at h
    split at h
    next => cases h
    next =>
      split at h
      next => cases h
      next hread =>
        obtain ⟨rfl, hcatalog⟩ := Prod.mk.inj h
        exact ⟨_, _, hread, (Except.ok.inj hcatalog).symm⟩

theorem proper_single {storage : Option Storage} (hname : validateName name = .ok ()) :
    Proper ⟨name, store, ∅, storage⟩ where
  notParked := rfl
  named {other found} hresident := by
    rw [resident?_eq] at hresident
    split at hresident
    next heq => rwa [heq]
    next => cases hresident

/-! ## §4. Names. -/

/-- **The names are those of the resident databases, sorted and without
repeats.** -/
theorem Proper.names_perm (h : catalog.Proper) :
    catalog.names.Perm (catalog.parked.keys ++ [catalog.currentName]) := by
  have hnodup : ∀ map : SortedMap String Store, map.keys.Nodup := fun map =>
    map.pairwise_keys.imp (fun hlt heq => by rw [heq, Std.ReflOrd.compare_self] at hlt; cases hlt)
  have hkeys : catalog.currentName ∉ catalog.parked.keys := by
    intro hmem
    obtain ⟨store, hstore⟩ := SortedMap.mem_keys_iff.1 hmem
    rw [h.notParked] at hstore
    cases hstore
  refine (List.perm_ext_iff_of_nodup (hnodup _) ?_).2 (fun name => ?_)
  · exact List.nodup_append.2 ⟨hnodup _, List.pairwise_singleton _ _,
      fun name hname other hother heq => hkeys (List.mem_singleton.1 hother ▸ heq ▸ hname)⟩
  · refine mem_names_iff.trans ?_
    rw [List.mem_append, List.mem_singleton, SortedMap.mem_keys_iff]
    constructor
    · rintro ⟨store, hstore⟩
      rw [resident?_eq] at hstore
      split at hstore
      next heq => exact .inr heq
      next => exact .inl ⟨store, hstore⟩
    · intro hname
      by_cases hsame : name = catalog.currentName
      · exact ⟨_, hsame ▸ resident?_currentName⟩
      · obtain ⟨store, hstore⟩ := hname.resolve_right hsame
        exact ⟨store, by rw [resident?_eq, if_neg hsame, hstore]⟩

end Catalog

end PropertyGraph
