import NamedQuery.Proofs.Store.Walk

/-! # Foreign keys

A foreign key connects the row that holds it with the row that it refers to (`Refers`). Relations of
both kinds follow this connection, each from its own end, so they are converse (`directions_converse`).

From the row of an `id` a foreign key leads to the rows that a search for the key finds
(`kept_related_of_key`). A walk along one relation shows these, without copies of equal rows, in the
window that it is asked for (`walk_as_search`). -/

namespace NamedQuery.Store

variable {store : Store} {table other foreignKey name : String}

/-! ## Both directions -/

/-- The key of a row refers to the `id` of another one: they are loosely equal, and neither of them is
missing or null. -/
def Refers (foreignKey : String) (row target : Row) : Prop :=
  ∃ key id, row.get? foreignKey = some key ∧ target.get? "id" = some id ∧
    key ≠ .null ∧ id ≠ .null ∧ looselyEqual key id

/-- Null loosely equals only itself. -/
theorem eq_null_of_looselyEqual {x : Json} (h : looselyEqual x .null) : x = .null := by
  cases x with
  | null => rfl
  | bool _ | number _ | string _ | array _ | object _ => cases h

theorem related_hasMany_iff {row target : Row} :
    Related store ⟨other, foreignKey, .hasMany⟩ target row ↔
      row ∈ store.rows other ∧ Refers foreignKey row target := by
  constructor
  · rintro ⟨hmem, id, hid, hnull, key, hkey, hequal⟩
    -- A key of null would be equal to the `id`, which is not null.
    refine ⟨hmem, key, id, hkey, hid, ?_, hnull, hequal⟩
    rintro rfl
    rw [looselyEqual_comm] at hequal
    exact hnull (eq_null_of_looselyEqual hequal)
  · rintro ⟨hmem, key, id, hkey, hid, -, hnull, hequal⟩
    exact ⟨hmem, id, hid, hnull, key, hkey, hequal⟩

theorem related_belongsTo_iff {row target : Row} :
    Related store ⟨table, foreignKey, .belongsTo⟩ row target ↔
      target ∈ store.rows table ∧ Refers foreignKey row target := by
  constructor
  · rintro ⟨hmem, key, hkey, hnull, id, hid, hequal⟩
    rw [looselyEqual_comm] at hequal
    refine ⟨hmem, key, id, hkey, hid, hnull, ?_, hequal⟩
    rintro rfl
    exact hnull (eq_null_of_looselyEqual hequal)
  · rintro ⟨hmem, key, id, hkey, hid, hnull, -, hequal⟩
    rw [looselyEqual_comm] at hequal
    exact ⟨hmem, key, hkey, hnull, id, hid, hequal⟩

/-- A row is among those that another one has many of exactly if this other one is among those that it
belongs to, by the same foreign key, and both mean that its key refers to the `id` of the other one. -/
theorem directions_converse (store : Store) (table other foreignKey : String) {target row : Row}
    (htarget : target ∈ store.rows table) (hrow : row ∈ store.rows other) :
    (row ∈ related store ⟨other, foreignKey, .hasMany⟩ target ↔
      target ∈ related store ⟨table, foreignKey, .belongsTo⟩ row) ∧
    (row ∈ related store ⟨other, foreignKey, .hasMany⟩ target ↔ Refers foreignKey row target) := by
  rw [mem_related_iff, mem_related_iff, related_hasMany_iff, related_belongsTo_iff]
  exact ⟨⟨fun h => ⟨htarget, h.2⟩, fun h => ⟨hrow, h.2⟩⟩, ⟨And.right, fun h => ⟨hrow, h⟩⟩⟩

/-- A user whose `id` is a text, and a post whose key is the number that it writes. -/
theorem post_refers_to_user :
    let user : Row := [("id", .string "7")]
    let post : Row := [("user_id", .number (.integer 7))]
    let store := (empty.withTable "users" [.object user]).withTable "posts" [.object post]
    user ∈ store.rows "users" ∧ post ∈ store.rows "posts" ∧
      (post ∈ related store ⟨"posts", "user_id", .hasMany⟩ user ↔
        user ∈ related store ⟨"users", "user_id", .belongsTo⟩ post) ∧
      (post ∈ related store ⟨"posts", "user_id", .hasMany⟩ user ↔ Refers "user_id" post user) := by
  intro user post store
  have huser : user ∈ store.rows "users" := .head _
  have hpost : post ∈ store.rows "posts" := .head _
  exact ⟨huser, hpost, directions_converse store "users" "posts" "user_id" huser hpost⟩

/-! ## Searching for a key -/

theorem Kept.trans {α : Type} {property property' : α → Prop} {list kept last : List α}
    (h : Kept property list kept) (h' : Kept property' kept last) :
    Kept (fun x => property x ∧ property' x) list last := by
  obtain ⟨keep, hkeep, rfl⟩ := h
  obtain ⟨keep', hkeep', rfl⟩ := h'
  rw [List.filter_filter]
  refine kept_filter (fun x => ?_) list
  rw [Bool.and_eq_true, hkeep, hkeep', and_comm]

theorem meetsAll_insert_iff {conditions : Fields Json} {field : String} {expected : Json} {row : Row}
    (h : conditions.get? field = none) :
    MeetsAll (conditions.insert field expected) row ↔
      Meets (row.get? field) expected ∧ MeetsAll conditions row := by
  have hmem {entry : String × Json} :
      entry ∈ conditions.insert field expected ↔ entry = (field, expected) ∨ entry ∈ conditions :=
    Fields.mem_insert_iff (Fields.notMem_names_of_get? h)
  unfold MeetsAll
  simp only [hmem]
  constructor
  · intro hall
    exact ⟨hall _ (.inl rfl), fun entry hentry => hall entry (.inr hentry)⟩
  · rintro ⟨hfield, hrest⟩ entry (rfl | hentry)
    · exact hfield
    · exact hrest entry hentry

theorem meetsAll_singleton_iff {field : String} {expected : Json} {row : Row} :
    MeetsAll [(field, expected)] row ↔ Meets (row.get? field) expected :=
  List.forall_mem_singleton

/-- The rows that a row has many of are those that meet its `id` as a condition on their key. -/
theorem kept_related_of_key {key : Json} (hnull : key ≠ .null) (hlist : ∀ items, key ≠ .array items)
    {anchor : Row} (hid : anchor.get? "id" = some key) :
    Kept (MeetsAll [(foreignKey, key)]) (store.rows other)
      (related store ⟨other, foreignKey, .hasMany⟩ anchor) := by
  rw [related_of_key hid hnull]
  refine kept_filter (fun row => ?_) _
  rw [meetsAll_singleton_iff]
  exact any_looselyEqual_iff_meets hnull hlist

theorem shows_of_silent {ask : Ask} (horder : Silent (ask "order")) (hoffset : Silent (ask "offset"))
    (hlimit : Silent (ask "limit")) (rows : List Row) : Shows ask rows rows :=
  ⟨rows, none, none, .none horder, .none hoffset, .none hlimit, rfl⟩

/-- What a fresh session on a table answers to a search. -/
theorem reply_findAll (store : Store) (table : String) (options : Options) {conditions : Fields Json}
    (hconditions : ConditionsIn (options.get? "conditions") conditions)
    (hwindow : WellFormedWindow options.get?) :
    ∃ kept shown, Kept (MeetsAll conditions) (store.rows table) kept ∧
      Shows options.get? kept shown ∧
      (store.session table).reply [] ⟨.findAll, options⟩ = .ok (.many shown) := by
  obtain ⟨kept, shown, hkept, hshows, hfound⟩ :=
    findAll_of_wellFormed store (.whole table) hconditions hwindow
  refine ⟨kept, shown, hkept, hshows, reply_nil_ok_iff.2 ?_⟩
  rw [perform, Move.answer_step, hfound]
  rfl

/-! ## Walking along one relation -/

/-- The options of a walk along one relation from the row of an `id`. -/
structure WalkAsks (id : Json) (name : String) (conditions : Fields Json) (options : Options) :
    Prop where
  id : options.get? "id" = some id
  via : options.get? "via" = some (.array [.string name])
  conditions : ConditionsIn (options.get? "conditions") conditions
  window : WellFormedWindow options.get?

variable {key : Json} {anchor : Row} {conditions : Fields Json} {options : Options}

/-- The walk searches among the rows that the anchor has many of. -/
theorem answer_walk (hwalk : WalkAsks key name conditions options)
    (hrelation : store.relation? table name = some ⟨other, foreignKey, .hasMany⟩)
    (hanchor : First (IdentifiedBy key) (store.rows table) anchor) :
    (ancestors store options (.whole table)).answer store =
      (findAll store options
        (.many other (distinct (related store ⟨other, foreignKey, .hasMany⟩ anchor)))).map
          (Selection.answer store) := by
  obtain ⟨first, hfirst, hget⟩ := get_of_anchor hwalk.id hanchor.mem.1 hanchor.mem.2
  obtain rfl := hfirst.unique hanchor
  -- From the anchor one hop leads to the rows the search then goes through.
  have hhop : hop store name (.one table first) =
      .ok (.many other (distinct (related store ⟨other, foreignKey, .hasMany⟩ first))) := by
    unfold hop
    simp only [Selection.tableName, hrelation]
  have hfollow : (follow store [name] (.one table first)).outcome =
      .ok (.many other (distinct (related store ⟨other, foreignKey, .hasMany⟩ first))) := by
    rw [follow, Move.outcome_andThen, Move.outcome_step, hhop]
    rfl
  have hvia : options.get? "via" = some (.array ([name].map .string)) := hwalk.via
  rw [answer_ancestors hvia, hget]
  show (follow store [name] (.one table first)).outcome.bind _ = _
  rw [hfollow]
  rfl

/-- A walk from the row of an `id` along a relation of the kind `hasMany` is a search for the `id` among
the keys of the other table: of what such a search finds, it leaves out later copies of equal rows, keeps
the rows that meet its conditions, and shows its window of them. If no two rows of the other table are
equal, one search for the key and the conditions, in the same window, answers the same. -/
theorem walk_as_search
    (hrelation : store.relation? table name = some ⟨other, foreignKey, .hasMany⟩)
    (hnull : key ≠ .null) (hlist : ∀ items, key ≠ .array items)
    (hanchor : First (IdentifiedBy key) (store.rows table) anchor)
    (hid : anchor.get? "id" = some key) (hfree : conditions.get? foreignKey = none)
    (hwalk : WalkAsks key name conditions options) :
    (∃ found kept met shown,
      (store.session other).reply [] ⟨.findAll, [("conditions", .object [(foreignKey, key)])]⟩ =
        .ok (.many found) ∧
      WithoutCopies found kept ∧ Kept (MeetsAll conditions) kept met ∧
      Shows options.get? met shown ∧
      (store.session table).reply [] ⟨.ancestors, options⟩ = .ok (.many shown)) ∧
    ((store.rows other).Pairwise (fun x y => ¬ Row.same x y) →
      ∀ search : Options,
        search.get? "conditions" = some (.object (conditions.insert foreignKey key)) →
        SameWindow search.get? options.get? →
        (store.session other).reply [] ⟨.findAll, search⟩ =
          (store.session table).reply [] ⟨.ancestors, options⟩) := by
  have hfound : Kept (MeetsAll [(foreignKey, key)]) (store.rows other)
      (related store ⟨other, foreignKey, .hasMany⟩ anchor) := kept_related_of_key hnull hlist hid
  have hcopies := withoutCopies_distinct (related store ⟨other, foreignKey, .hasMany⟩ anchor)
  obtain ⟨met, shown, hmet, hshows, hsearch⟩ := findAll_of_wellFormed store
    (.many other (distinct (related store ⟨other, foreignKey, .hasMany⟩ anchor)))
    hwalk.conditions hwalk.window
  have hanswer : (store.session table).reply [] ⟨.ancestors, options⟩ = .ok (.many shown) := by
    rw [reply_nil_ok_iff, perform, answer_walk hwalk hrelation hanchor, hsearch]
    rfl
  refine ⟨⟨_, _, met, shown, ?_, hcopies, hmet, hshows, hanswer⟩, fun hpairwise search hasks hwindow => ?_⟩
  · -- The search by the key alone finds what the relation leads to.
    have hsilent : WellFormedWindow (Fields.get? [("conditions", .object [(foreignKey, key)])]) :=
      ⟨.inl (.inl rfl), ⟨none, .none (.inl rfl)⟩, ⟨none, .none (.inl rfl)⟩⟩
    obtain ⟨kept, all, hkept, hall, hreply⟩ :=
      reply_findAll store other [("conditions", .object [(foreignKey, key)])] .map hsilent
    obtain rfl := hkept.unique hfound
    rw [hreply, hall.unique (shows_of_silent (.inl rfl) (.inl rfl) (.inl rfl) _)]
  · -- Without copies in the table there are none among the rows found, so both searches are one.
    have hsame := hcopies.eq_self (hpairwise.sublist (related_sublist store _ anchor))
    have hconditions : ConditionsIn (search.get? "conditions") (conditions.insert foreignKey key) := by
      rw [hasks]
      exact .map
    obtain ⟨kept, all, hkept, hall, hreply⟩ := reply_findAll store other search hconditions
      (hwindow.symm.wellFormed hwalk.window)
    have hboth : Kept (MeetsAll (conditions.insert foreignKey key)) (store.rows other) met := by
      rw [Selection.rows, hsame] at hmet
      refine (kept_congr fun row => ?_).1 (hfound.trans hmet)
      rw [meetsAll_insert_iff hfree, meetsAll_singleton_iff]
    obtain rfl := hkept.unique hboth
    rw [hreply, hanswer, hshows.unique (hwindow.shows hall)]

/-- A user with a post that was stored twice, and with two different comments. Of the posts and of the
comments one has the `id` of the user as its key, and the others have the number that it writes. -/
def forum : Store where
  tables := [
    ("comments", [
      [("id", .ofNat 20), ("user_id", .string "7")],
      [("id", .ofNat 21), ("user_id", .ofNat 7)]]),
    ("posts", [
      [("id", .ofNat 10), ("title", .string "b"), ("user_id", .ofNat 7)],
      [("id", .ofNat 10), ("title", .string "b"), ("user_id", .ofNat 7)],
      [("id", .ofNat 11), ("title", .string "a"), ("user_id", .string "7")]]),
    ("users", [[("id", .string "7")]])]
  relations := [("users", [
    ("comments", ⟨"comments", "user_id", .hasMany⟩),
    ("posts", ⟨"posts", "user_id", .hasMany⟩)])]

def postsByTitle : Options := Fields.ofList [("id", .string "7"), ("offset", .ofNat 1),
  ("order", .string "title"), ("via", .array [.string "posts"])]

def lastComment : Options := Fields.ofList [("id", .string "7"), ("limit", .ofNat 1),
  ("order", .string "id DESC"), ("via", .array [.string "comments"])]

/-- Of the post that was stored twice one copy is shown, after the other post. -/
example : (forum.session "users").reply [] ⟨.ancestors, postsByTitle⟩ =
    .ok (.many [[("id", .ofNat 10), ("title", .string "b"), ("user_id", .ofNat 7)]]) := by
  cbv

theorem forum_walk_as_search :
    let key : Json := .string "7"
    let search : Options := Fields.ofList [("conditions", .object [("user_id", key)]),
      ("limit", .ofNat 1), ("order", .string "id DESC")]
    First (IdentifiedBy key) (forum.rows "users") [("id", key)] ∧
    WalkAsks key "posts" [] postsByTitle ∧
    (∃ found kept met shown,
      (forum.session "posts").reply [] ⟨.findAll, [("conditions", .object [("user_id", key)])]⟩ =
        .ok (.many found) ∧
      WithoutCopies found kept ∧ Kept (MeetsAll []) kept met ∧ Shows postsByTitle.get? met shown ∧
      (forum.session "users").reply [] ⟨.ancestors, postsByTitle⟩ = .ok (.many shown)) ∧
    WalkAsks key "comments" [] lastComment ∧
    (forum.rows "comments").Pairwise (fun x y => ¬ Row.same x y) ∧
    SameWindow search.get? lastComment.get? ∧
    (forum.session "comments").reply [] ⟨.findAll, search⟩ =
      (forum.session "users").reply [] ⟨.ancestors, lastComment⟩ := by
  intro key search
  have hanchor : First (IdentifiedBy key) (forum.rows "users") [("id", key)] :=
    ⟨[], [], rfl, ⟨key, rfl, rfl⟩, nofun⟩
  have hposts : WalkAsks key "posts" [] postsByTitle :=
    ⟨rfl, rfl, .none (.inl rfl), .inr ⟨"title", rfl⟩, ⟨some 1, .natural⟩, ⟨none, .none (.inl rfl)⟩⟩
  have hcomments : WalkAsks key "comments" [] lastComment :=
    ⟨rfl, rfl, .none (.inl rfl), .inr ⟨"id DESC", rfl⟩, ⟨none, .none (.inl rfl)⟩, ⟨some 1, .natural⟩⟩
  have hpairwise : (forum.rows "comments").Pairwise (fun x y => ¬ Row.same x y) := by decide
  have hwindow : SameWindow search.get? lastComment.get? := ⟨rfl, rfl, rfl⟩
  have hnull : key ≠ .null := nofun
  have hlist : ∀ items, key ≠ .array items := nofun
  have hpostsRelation : forum.relation? "users" "posts" = some ⟨"posts", "user_id", .hasMany⟩ := rfl
  have hcommentsRelation :
      forum.relation? "users" "comments" = some ⟨"comments", "user_id", .hasMany⟩ := rfl
  obtain ⟨hcopies, -⟩ := walk_as_search hpostsRelation hnull hlist hanchor rfl rfl hposts
  obtain ⟨-, hsame⟩ := walk_as_search hcommentsRelation hnull hlist hanchor rfl rfl hcomments
  exact ⟨hanchor, hposts, hcopies, hcomments, hpairwise, hwindow, hsame hpairwise search rfl hwindow⟩

end NamedQuery.Store
