import Mathlib.Data.List.Perm.Basic
import NamedQuery.Proofs.Store.Embedding
import NamedQuery.Proofs.Store.Hop

/-! # Where selected rows come from

What a session has selected are always rows of the table that it stands on: they can be matched with
different places of the table (`DrawnFrom`). They are the rows that stand there, but for what has been
embedded in them under the names of relations. -/

namespace NamedQuery

/-- Rows can be matched one to one with different places of a table, so that each of them agrees with
the row that stands in its place. -/
def DrawnFrom (agree : Row → Row → Prop) (table rows : List Row) : Prop :=
  ∃ places : List Nat, places.Nodup ∧
    List.Forall₂ (fun row place => ∃ original, table[place]? = some original ∧ agree row original)
      rows places

/-! ## Lists that are matched -/

section Matched

variable {α β : Type} {r : α → β → Prop} {xs xs' : List α} {ys : List β}

theorem exists_forall₂_of_sublist (h : List.Forall₂ r xs ys) (hsub : xs'.Sublist xs) :
    ∃ ys', ys'.Sublist ys ∧ List.Forall₂ r xs' ys' := by
  induction hsub generalizing ys with
  | slnil =>
    cases h
    exact ⟨[], .slnil, .nil⟩
  | cons x _ ih =>
    cases h with
    | cons _ hrest =>
      obtain ⟨ys', hys, hrest⟩ := ih hrest
      exact ⟨ys', hys.cons _, hrest⟩
  | cons_cons x _ ih =>
    cases h with
    | cons hx hrest =>
      obtain ⟨ys', hys, hrest⟩ := ih hrest
      exact ⟨_ :: ys', hys.cons_cons _, .cons hx hrest⟩

theorem exists_forall₂_of_subperm (h : List.Forall₂ r xs ys) (hsub : xs'.Subperm xs) :
    ∃ ys', ys'.Subperm ys ∧ List.Forall₂ r xs' ys' := by
  obtain ⟨middle, hperm, hsublist⟩ := hsub
  obtain ⟨ys', hys, hmiddle⟩ := exists_forall₂_of_sublist h hsublist
  obtain ⟨ys'', hforall, hperm'⟩ := List.perm_comp_forall₂ hperm.symm hmiddle
  exact ⟨ys'', ⟨ys', hperm'.symm, hys⟩, hforall⟩

end Matched

namespace DrawnFrom

variable {agree agree' : Row → Row → Prop} {table rows rows' : List Row}

theorem all (hrefl : ∀ row, agree row row) (table : List Row) : DrawnFrom agree table table := by
  refine ⟨List.range table.length, List.nodup_range, List.forall₂_iff_get.2 ⟨by simp, ?_⟩⟩
  intro place hrow hplace
  refine ⟨table[place], ?_, hrefl _⟩
  simp

/-- Rows can be left out and put in another order. -/
theorem subperm (h : DrawnFrom agree table rows) (hsub : rows'.Subperm rows) :
    DrawnFrom agree table rows' := by
  obtain ⟨places, hnodup, hplaces⟩ := h
  obtain ⟨places', hsub', hplaces'⟩ := exists_forall₂_of_subperm hplaces hsub
  obtain ⟨middle, hperm, hsublist⟩ := hsub'
  exact ⟨places', hperm.nodup_iff.1 (hsublist.nodup hnodup), hplaces'⟩

/-- Rows can be changed where this does not matter. -/
theorem map (h : DrawnFrom agree table rows) {change : Row → Row}
    (hchange : ∀ row original, agree row original → agree' (change row) original) :
    DrawnFrom agree' table (rows.map change) := by
  obtain ⟨places, hnodup, hplaces⟩ := h
  refine ⟨places, hnodup, List.forall₂_map_left_iff.2 (hplaces.imp ?_)⟩
  rintro row place ⟨original, hplace, hagree⟩
  exact ⟨original, hplace, hchange row original hagree⟩

end DrawnFrom

namespace Store

/-! ## What steps keep -/

/-- What is selected is drawn from the table that it stands on. -/
def Drawn (store : Store) (agree : String → Row → Row → Prop) (selection : Selection) : Prop :=
  DrawnFrom (agree selection.tableName) (store.rows selection.tableName) (selection.rows store)

theorem apply_subperm (window : Window) (rows : List Row) : (window.apply rows).Subperm rows := by
  obtain ⟨order, offset, limit⟩ := window
  have hrest : ∀ sorted : List Row, sorted.Subperm rows → (sorted.drop offset).Subperm rows :=
    fun sorted hsorted => (List.drop_sublist offset sorted).subperm.trans hsorted
  have hsort : ∀ order : RowOrder, (order.sort rows).Subperm rows :=
    fun order => (List.mergeSort_perm rows _).subperm
  cases order with
  | none =>
    cases limit with
    | none => exact hrest rows (.refl rows)
    | some limit => exact (List.take_sublist limit _).subperm.trans (hrest rows (.refl rows))
  | some order =>
    cases limit with
    | none => exact hrest _ (hsort order)
    | some limit => exact (List.take_sublist limit _).subperm.trans (hrest _ (hsort order))

section Steps

variable {store : Store} {options : Options} {selection next : Selection}

theorem get_subperm (h : get store options selection = .ok next) :
    next.tableName = selection.tableName ∧ (next.rows store).Subperm (selection.rows store) := by
  unfold get at h
  split at h
  · cases h
  · split at h
    · cases h
    · next row hfind =>
      cases h
      exact ⟨rfl, List.singleton_subperm_iff.2 (List.mem_of_find?_eq_some hfind)⟩

theorem findAll_subperm (h : findAll store options selection = .ok next) :
    next.tableName = selection.tableName ∧ (next.rows store).Subperm (selection.rows store) := by
  obtain ⟨conditions, _, h⟩ := bind_eq_ok_iff.1 h
  obtain ⟨window, _, h⟩ := bind_eq_ok_iff.1 h
  cases h
  exact ⟨rfl, (apply_subperm window _).trans List.filter_sublist.subperm⟩

theorem first_subperm (h : first store selection = .ok next) :
    next.tableName = selection.tableName ∧ (next.rows store).Subperm (selection.rows store) := by
  unfold first at h
  split at h
  · cases h
  · next row rest hrows =>
    cases h
    rw [hrows]
    exact ⟨rfl, List.singleton_subperm_iff.2 (List.mem_cons_self ..)⟩

theorem keepJoined_sublist {relation : Relation} {rows joined : List Row}
    (h : keepJoined store relation options rows = .ok joined) : joined.Sublist rows := by
  unfold keepJoined at h
  split at h
  · cases h
    exact List.nil_sublist rows
  · obtain ⟨conditions, _, h⟩ := bind_eq_ok_iff.1 h
    cases h
    exact List.filter_sublist

theorem join_subperm (h : join store options selection = .ok next) :
    next.tableName = selection.tableName ∧ (next.rows store).Subperm (selection.rows store) := by
  unfold join at h
  split at h
  · split at h
    · cases h
    · obtain ⟨conditions, _, h⟩ := bind_eq_ok_iff.1 h
      obtain ⟨joined, hjoined, h⟩ := bind_eq_ok_iff.1 h
      obtain ⟨window, _, h⟩ := bind_eq_ok_iff.1 h
      cases h
      have hkept := (keepJoined_sublist hjoined).subperm.trans List.filter_sublist.subperm
      exact ⟨rfl, (apply_subperm window joined).trans hkept⟩
  · cases h

/-- A hop reaches rows of the other table, each of them once. -/
theorem hop_reaches {name : String} (h : hop store name selection = .ok next) :
    (next.rows store).Nodup ∧ next.rows store ⊆ store.rows next.tableName := by
  have hdistinct : ∀ (relation : Relation) (rows : List Row),
      distinct (rows.flatMap (related store relation)) ⊆ store.rows relation.table := by
    intro relation rows row hrow
    obtain ⟨source, _, hrelated⟩ := List.mem_flatMap.1 ((distinctAfter_sublist [] _).mem hrow)
    exact related_subset_rows hrelated
  unfold hop at h
  cases hrelation : store.relation? selection.tableName name with
  | none =>
    rw [hrelation] at h
    cases h
  | some relation =>
    rw [hrelation] at h
    cases selection with
    | whole table => cases h
    | many table rows =>
      cases h
      exact ⟨nodup_distinct _, hdistinct relation rows⟩
    | one table row =>
      have hone : distinct (related store relation row) ⊆ store.rows relation.table := by
        have hrow := hdistinct relation [row]
        rwa [List.flatMap_singleton] at hrow
      simp only at h
      split at h
      · cases h
        exact ⟨nodup_distinct _, hone⟩
      · split at h
        · cases h
        · next reached _ hreached =>
          -- One row is reached where a set would begin with it.
          cases h
          rw [hreached] at hone
          refine ⟨List.pairwise_singleton _ _, List.cons_subset.2 ⟨?_, List.nil_subset _⟩⟩
          exact hone (List.mem_cons_self ..)

end Steps

variable {store : Store} {agree : String → Row → Row → Prop}

theorem drawn_of_selects (hrefl : ∀ table row, agree table row row) {selection next : Selection}
    (hselects : Selects store selection next) (h : store.Drawn agree selection) :
    store.Drawn agree next := by
  have hkept : next.tableName = selection.tableName ∧
      (next.rows store).Subperm (selection.rows store) → store.Drawn agree next := by
    rintro ⟨htable, hsub⟩
    rw [Drawn, htable]
    exact h.subperm hsub
  cases hselects with
  | get hget => exact hkept (get_subperm hget)
  | findAll hfind => exact hkept (findAll_subperm hfind)
  | first hfirst => exact hkept (first_subperm hfirst)
  | join hjoin => exact hkept (join_subperm hjoin)
  | hop hhop =>
    obtain ⟨hnodup, hsubset⟩ := hop_reaches hhop
    exact (DrawnFrom.all (hrefl _) _).subperm (List.subperm_of_subset hnodup hsubset)

/-! ## Embedded rows -/

/-- Rows of a table agree on all fields that are not the name of a relation of the table. -/
def AgreesOffRelations (store : Store) (table : String) (x y : Row) : Prop :=
  ∀ field, store.relation? table field = none → x.get? field = y.get? field

theorem embed_agrees {table : String} {relations : List (String × Relation)}
    (hdeclared : ∀ entry ∈ relations, store.relation? table entry.1 = some entry.2) {x y : Row}
    (h : store.AgreesOffRelations table x y) :
    store.AgreesOffRelations table (embed store relations x) y := by
  intro field hfield
  have hnotMem : field ∉ relations.map Prod.fst := by
    intro hmem
    obtain ⟨entry, hentry, rfl⟩ := List.mem_map.1 hmem
    exact absurd (hfield.symm.trans (hdeclared entry hentry)) nofun
  exact (get?_embed_of_notMem hnotMem x).trans (h field hfield)

theorem drawn_of_eagerLoad {options : Options} {selection next : Selection}
    (hembed : eagerLoad store options selection = .ok next)
    (h : store.Drawn store.AgreesOffRelations selection) :
    store.Drawn store.AgreesOffRelations next := by
  obtain ⟨relations, hresolve, -⟩ := bind_eq_ok_iff.1 hembed
  obtain ⟨_, hnext, htable, -, hrows⟩ := exists_eagerLoad_eq_ok hresolve
  obtain rfl := Except.ok.inj (hembed.symm.trans hnext)
  rw [Drawn, htable, hrows]
  exact h.map fun row original => embed_agrees (relation?_of_resolve hresolve)

/-! ## Main statement -/

/-- A session never makes rows up or multiplies them. Whatever calls were made, also such that failed,
what is selected are rows of the table that it stands on, each from a place of its own; only fields with
the names of relations of the table can have changed, and they have not as long as nothing was embedded.
Every successful answer shows just these rows. -/
theorem selected_drawnFrom (store : Store) (table : String) (calls : List Call) :
    let selection := store.selected table calls
    let standing := store.rows selection.tableName
    DrawnFrom (store.AgreesOffRelations selection.tableName) standing (selection.rows store) ∧
    ((∀ action ∈ Call.actions calls, action.name ≠ .eagerLoad) →
      DrawnFrom Eq standing (selection.rows store)) ∧
    ∀ earlier call answer, calls = earlier ++ [call] →
      (store.session table).answer earlier call = .ok answer →
        answer.rows = selection.rows store := by
  -- Of all calls only the embedding changes rows, and those only at names of relations.
  refine ⟨?_, fun hplain => ?_, ?_⟩
  · have hrefl : ∀ table row, store.AgreesOffRelations table row row := fun _ _ _ _ => rfl
    exact selectionAfter_keeps (P := store.Drawn store.AgreesOffRelations)
      (fun hselects h => drawn_of_selects hrefl hselects h)
      (fun action _ _ _ _ hembed h => drawn_of_eagerLoad hembed h) (DrawnFrom.all (hrefl _) _)
  · exact selectionAfter_keeps (P := store.Drawn fun _ => Eq)
      (fun hselects h => drawn_of_selects (fun _ _ => rfl) hselects h)
      (fun action haction hname => absurd hname (hplain action haction)) (DrawnFrom.all (fun _ => rfl) _)
  · rintro earlier call answer rfl hanswer
    exact rows_of_answer hanswer

end Store

end NamedQuery
