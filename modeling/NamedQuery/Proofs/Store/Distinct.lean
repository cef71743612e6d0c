import Mathlib.Data.List.Induction
import NamedQuery.Store.Selection

/-! # Distinct rows

Equality of values tells all values apart but the two floating-point zeros. Where no value holds a
negative zero, equal rows are one and the same (`eq_of_same`), and `distinct` keeps every row once,
in the order of the first places (`pairwise_distinct`). Whatever the rows hold, it leaves out just those
that come after an equal one (`withoutCopies_distinct`). -/

namespace NamedQuery

/-! ## Equality without negative zeros -/

/-- Somewhere in a value stands a negative zero. -/
inductive Json.HoldsNegativeZero : Json → Prop where
  | zero {x : Numeric.Binary64} : x.negative = true → x.rank = 0 →
      HoldsNegativeZero (.number (.float x))
  | item {items : List Json} {item : Json} : item ∈ items → HoldsNegativeZero item →
      HoldsNegativeZero (.array items)
  | field {fields : Fields Json} {entry : String × Json} : entry ∈ fields →
      HoldsNegativeZero entry.2 → HoldsNegativeZero (.object fields)

theorem Json.not_holdsNegativeZero_integer (n : Int) (isWord : Json.IsWord n) :
    ¬ (Json.number (.integer n isWord)).HoldsNegativeZero := nofun

theorem Json.not_holdsNegativeZero_string (s : String) : ¬ (Json.string s).HoldsNegativeZero := nofun

theorem Json.not_holdsNegativeZero_object_nil : ¬ (Json.object []).HoldsNegativeZero := by
  rintro ⟨⟩
  contradiction

theorem Json.holdsNegativeZero_object_cons {name : String} {value : Json} {rest : Fields Json} :
    (Json.object ((name, value) :: rest)).HoldsNegativeZero ↔
      value.HoldsNegativeZero ∨ (Json.object rest).HoldsNegativeZero := by
  constructor
  · intro h
    cases h with
    | field hentry hvalue =>
      rcases List.mem_cons.1 hentry with rfl | hrest
      · exact .inl hvalue
      · exact .inr (.field hrest hvalue)
  · rintro (hvalue | hrest)
    · exact .field (List.mem_cons_self ..) hvalue
    · cases hrest with
      | field hentry hvalue => exact .field (List.mem_cons_of_mem _ hentry) hvalue

/-- Apart from negative zeros, a number is known from its place. -/
theorem Numeric.Binary64.eq_of_key {x y : Numeric.Binary64} (hx : ¬ (x.negative = true ∧ x.rank = 0))
    (hy : ¬ (y.negative = true ∧ y.rank = 0)) (h : x.key = y.key) : x = y := by
  obtain ⟨sx, rx, hrx⟩ := x
  obtain ⟨sy, ry, hry⟩ := y
  unfold Numeric.Binary64.key at h
  simp only at h hx hy
  cases sx <;> cases sy <;>
    simp only [Bool.false_eq_true, if_false, if_true, true_and, false_and, not_false_eq_true] at h hx hy
  · have hrank : rx = ry := by omega
    subst hrank
    rfl
  · omega
  · omega
  · have hrank : rx = ry := by omega
    subst hrank
    rfl

namespace Json

mutual
/-- Values without negative zeros are the same only if they are equal. -/
theorem eq_of_same : ∀ {x y : Json}, ¬ x.HoldsNegativeZero → ¬ y.HoldsNegativeZero →
    x.same y → x = y
  | .null, y, _, _, h => by cases y <;> first | rfl | cases h
  | .bool a, y, _, _, h => by
    cases y with
    | bool b => rw [eq_of_beq (h : (a == b) = true)]
    | _ => cases h
  | .number m, y, hx, hy, h => by
    cases y with
    | number n =>
      cases m with
      | integer m hm =>
        cases n with
        | integer n hn =>
          obtain rfl : m = n := eq_of_beq (h : (m == n) = true)
          rfl
        | float y => cases h
      | float x =>
        cases n with
        | integer n hn => cases h
        | float y =>
          -- Both zeros have one place, but neither number is a negative zero.
          have hkey : x.key = y.key := eq_of_beq (h : (x.key == y.key) = true)
          rw [Numeric.Binary64.eq_of_key (fun h => hx (.zero h.1 h.2)) (fun h => hy (.zero h.1 h.2))
            hkey]
    | _ => cases h
  | .string s, y, _, _, h => by
    cases y with
    | string t => rw [eq_of_beq (h : (s == t) = true)]
    | _ => cases h
  | .array xs, y, hx, hy, h => by
    cases y with
    | array ys =>
      rw [eq_of_sameItems (fun item hitem hzero => hx (.item hitem hzero))
        (fun item hitem hzero => hy (.item hitem hzero)) h]
    | _ => cases h
  | .object xs, y, hx, hy, h => by
    cases y with
    | object ys =>
      rw [eq_of_sameFields (fun entry hentry hzero => hx (.field hentry hzero))
        (fun entry hentry hzero => hy (.field hentry hzero)) h]
    | _ => cases h
theorem eq_of_sameItems : ∀ {xs ys : List Json}, (∀ x ∈ xs, ¬ x.HoldsNegativeZero) →
    (∀ y ∈ ys, ¬ y.HoldsNegativeZero) → sameItems xs ys → xs = ys
  | [], ys, _, _, h => by cases ys <;> first | rfl | cases h
  | x :: xs, ys, hxs, hys, h => by
    cases ys with
    | nil => cases h
    | cons y ys =>
      obtain ⟨hx, hxs⟩ := List.forall_mem_cons.1 hxs
      obtain ⟨hy, hys⟩ := List.forall_mem_cons.1 hys
      obtain ⟨hhead, htail⟩ := Bool.and_eq_true_iff.1 h
      rw [eq_of_same hx hy hhead, eq_of_sameItems hxs hys htail]
theorem eq_of_sameFields : ∀ {xs ys : Fields Json}, (∀ x ∈ xs, ¬ x.2.HoldsNegativeZero) →
    (∀ y ∈ ys, ¬ y.2.HoldsNegativeZero) → sameFields xs ys → xs = ys
  | [], ys, _, _, h => by cases ys <;> first | rfl | cases h
  | (k, x) :: xs, ys, hxs, hys, h => by
    cases ys with
    | nil => cases h
    | cons entry ys =>
      obtain ⟨l, y⟩ := entry
      obtain ⟨hx, hxs⟩ := List.forall_mem_cons.1 hxs
      obtain ⟨hy, hys⟩ := List.forall_mem_cons.1 hys
      obtain ⟨hfirst, htail⟩ := Bool.and_eq_true_iff.1 h
      obtain ⟨hname, hhead⟩ := Bool.and_eq_true_iff.1 hfirst
      have hvalue : x = y := eq_of_same hx hy hhead
      rw [eq_of_beq hname, hvalue, eq_of_sameFields hxs hys htail]
end

end Json

/-! ## Transitivity -/

namespace Json

theorem Number.same_trans {l m n : Number} (hlm : l.same m) (hmn : m.same n) : l.same n := by
  cases l with
  | integer l hl =>
    cases m with
    | integer m hm =>
      obtain rfl : l = m := eq_of_beq hlm
      exact hmn
    | float y => cases hlm
  | float x =>
    cases m with
    | integer m hm => cases hlm
    | float y =>
      cases n with
      | integer n hn => cases hmn
      | float z => exact beq_iff_eq.2 ((eq_of_beq hlm).trans (eq_of_beq hmn))

mutual
/-- Values that are the same as one value are the same. -/
theorem same_trans : ∀ {x y z : Json}, x.same y → y.same z → x.same z
  -- Equal values are of one kind, so there is a case for each kind and not for each three of them.
  | .null, y, z, hxy, hyz => by cases y <;> first | exact hyz | cases hxy
  | .bool a, y, z, hxy, hyz => by
    cases y with
    | bool b => rwa [show a = b from eq_of_beq hxy]
    | _ => cases hxy
  | .number l, y, z, hxy, hyz => by
    cases y with
    | number m =>
      cases z with
      | number n => exact Number.same_trans hxy hyz
      | _ => cases hyz
    | _ => cases hxy
  | .string s, y, z, hxy, hyz => by
    cases y with
    | string t => rwa [show s = t from eq_of_beq hxy]
    | _ => cases hxy
  | .array xs, y, z, hxy, hyz => by
    cases y with
    | array ys =>
      cases z with
      | array zs => exact sameItems_trans hxy hyz
      | _ => cases hyz
    | _ => cases hxy
  | .object xs, y, z, hxy, hyz => by
    cases y with
    | object ys =>
      cases z with
      | object zs => exact sameFields_trans hxy hyz
      | _ => cases hyz
    | _ => cases hxy
theorem sameItems_trans : ∀ {xs ys zs : List Json}, sameItems xs ys → sameItems ys zs →
    sameItems xs zs
  | [], ys, zs, hxy, hyz => by cases ys <;> first | exact hyz | cases hxy
  | x :: xs, ys, zs, hxy, hyz => by
    cases ys with
    | nil => cases hxy
    | cons y ys =>
      cases zs with
      | nil => cases hyz
      | cons z zs =>
        obtain ⟨hx, hxs⟩ := Bool.and_eq_true_iff.1 hxy
        obtain ⟨hy, hys⟩ := Bool.and_eq_true_iff.1 hyz
        exact Bool.and_eq_true_iff.2 ⟨same_trans hx hy, sameItems_trans hxs hys⟩
theorem sameFields_trans : ∀ {xs ys zs : Fields Json}, sameFields xs ys → sameFields ys zs →
    sameFields xs zs
  | [], ys, zs, hxy, hyz => by cases ys <;> first | exact hyz | cases hxy
  | (k, x) :: xs, ys, zs, hxy, hyz => by
    cases ys with
    | nil => cases hxy
    | cons entry ys =>
      cases zs with
      | nil => cases hyz
      | cons entry' zs =>
        obtain ⟨hfirst, hxs⟩ := Bool.and_eq_true_iff.1 hxy
        obtain ⟨hname, hx⟩ := Bool.and_eq_true_iff.1 hfirst
        obtain ⟨hfirst', hys⟩ := Bool.and_eq_true_iff.1 hyz
        obtain ⟨hname', hy⟩ := Bool.and_eq_true_iff.1 hfirst'
        have hnames : (k == entry'.1) = true :=
          beq_iff_eq.2 ((eq_of_beq hname).trans (eq_of_beq hname'))
        exact Bool.and_eq_true_iff.2
          ⟨Bool.and_eq_true_iff.2 ⟨hnames, same_trans hx hy⟩, sameFields_trans hxs hys⟩
end

end Json

/-! ## Rows -/

/-- Rows that are equal as records are one and the same. -/
def Row.Faithful (rows : List Row) : Prop :=
  ∀ x ∈ rows, ∀ y ∈ rows, Row.same x y → x = y

theorem Row.faithful_of_noNegativeZero {rows : List Row}
    (h : ∀ row ∈ rows, ¬ (Json.object row).HoldsNegativeZero) : Row.Faithful rows := by
  intro x hx y hy hsame
  have hobject : Json.object x = Json.object y := Json.eq_of_same (h x hx) (h y hy) hsame
  exact Json.object.inj hobject

theorem Row.Faithful.mono {xs ys : List Row} (h : Row.Faithful ys) (hsubset : xs ⊆ ys) :
    Row.Faithful xs :=
  fun x hx y hy => h x (hsubset hx) y (hsubset hy)

theorem Row.same_self (x : Row) : Row.same x x :=
  Json.sameFields_refl x

/-! ## First places -/

/-- In a list stands `x` before `y` first does, if it does at all. -/
inductive Precedes {α : Type} : List α → α → α → Prop where
  | here {x y : α} {rest : List α} : x ≠ y → Precedes (x :: rest) x y
  | later {x y z : α} {rest : List α} : z ≠ y → Precedes rest x y → Precedes (z :: rest) x y

namespace Precedes

variable {α : Type} {x y : α}

theorem asymm {list : List α} (hxy : Precedes list x y) (hyx : Precedes list y x) : False := by
  induction hxy with
  | here hne =>
    cases hyx with
    | here _ => exact hne rfl
    | later hne' _ => exact hne' rfl
  | later hne _ ih =>
    cases hyx with
    | here _ => exact hne rfl
    | later _ hrest => exact ih hrest

theorem of_append_left {front back : List α} (hx : x ∈ front) (h : Precedes (front ++ back) x y) :
    Precedes front x y := by
  induction front with
  | nil => cases hx
  | cons z front ih =>
    cases h with
    | here hne => exact .here hne
    | later hne hrest =>
      rcases List.mem_cons.1 hx with rfl | hmem
      · exact .here hne
      · exact .later hne (ih hmem hrest)

theorem of_append_right {front back : List α} (hx : x ∉ front)
    (h : Precedes (front ++ back) x y) : y ∉ front ∧ Precedes back x y := by
  induction front with
  | nil => exact ⟨List.not_mem_nil, h⟩
  | cons z front ih =>
    cases h with
    | here _ => exact absurd (List.mem_cons_self ..) hx
    | later hne hrest =>
      obtain ⟨hfront, hback⟩ := ih (fun hmem => hx (List.mem_cons_of_mem _ hmem)) hrest
      refine ⟨fun hmem => ?_, hback⟩
      rcases List.mem_cons.1 hmem with rfl | hmem
      · exact hne rfl
      · exact hfront hmem

theorem of_filter {keep : α → Bool} {list : List α} (hy : keep y)
    (h : Precedes (list.filter keep) x y) : Precedes list x y := by
  induction list with
  | nil => exact h
  | cons z list ih =>
    rw [List.filter_cons] at h
    split at h
    · cases h with
      | here hne => exact .here hne
      | later hne hrest => exact .later hne (ih hrest)
    · next hdropped =>
      -- What is dropped is not `y`, so `y` has its first place among the rest.
      refine .later ?_ (ih h)
      rintro rfl
      exact hdropped hy

end Precedes

/-! ## Distinct rows -/

namespace Store

variable {seen rest rows : List Row} {first row : Row}

theorem distinctAfter_sublist (seen rows : List Row) : (distinctAfter seen rows).Sublist rows := by
  induction rows generalizing seen with
  | nil => exact .slnil
  | cons first rest ih =>
    rw [distinctAfter]
    split
    · exact (ih seen).cons first
    · exact (ih (first :: seen)).cons_cons first

theorem notMem_of_mem_distinctAfter (h : row ∈ distinctAfter seen rows) : row ∉ seen := by
  induction rows generalizing seen with
  | nil => cases h
  | cons first rest ih =>
    rw [distinctAfter] at h
    split at h
    · exact ih h
    · next hnew =>
      rcases List.mem_cons.1 h with rfl | h
      · exact fun hmem => hnew (List.any_eq_true.2 ⟨row, hmem, row.same_self⟩)
      · exact fun hmem => ih h (List.mem_cons_of_mem _ hmem)

theorem nodup_distinctAfter (seen rows : List Row) : (distinctAfter seen rows).Nodup := by
  induction rows generalizing seen with
  | nil => exact List.nodup_nil
  | cons first rest ih =>
    rw [distinctAfter]
    split
    · exact ih seen
    · refine List.nodup_cons.2 ⟨fun hlater => ?_, ih (first :: seen)⟩
      exact notMem_of_mem_distinctAfter hlater (List.mem_cons_self ..)

theorem nodup_distinct (rows : List Row) : (distinct rows).Nodup :=
  nodup_distinctAfter [] rows

/-! ### Rows of which equal ones are the same -/

theorem any_same_iff (h : Row.Faithful (row :: seen)) :
    (seen.any (Row.same · row)) ↔ row ∈ seen := by
  rw [List.any_eq_true]
  constructor
  · rintro ⟨x, hx, hsame⟩
    obtain rfl := h x (List.mem_cons_of_mem _ hx) row (List.mem_cons_self ..) hsame
    exact hx
  · intro hmem
    exact ⟨row, hmem, row.same_self⟩

theorem distinctAfter_of_mem (h : Row.Faithful (seen ++ first :: rest)) (hmem : first ∈ seen) :
    distinctAfter seen (first :: rest) = distinctAfter seen rest := by
  rw [distinctAfter, if_pos ((any_same_iff (h.mono (by grind))).2 hmem)]

theorem distinctAfter_of_notMem (h : Row.Faithful (seen ++ first :: rest)) (hmem : first ∉ seen) :
    distinctAfter seen (first :: rest) = first :: distinctAfter (first :: seen) rest := by
  rw [distinctAfter, if_neg fun hany => hmem ((any_same_iff (h.mono (by grind))).1 hany)]

/-- What comes after `seen` are the rows that are not among `seen`. -/
theorem mem_distinctAfter_iff (h : Row.Faithful (seen ++ rows)) :
    row ∈ distinctAfter seen rows ↔ row ∈ rows ∧ row ∉ seen := by
  induction rows generalizing seen with
  | nil => simp [distinctAfter]
  | cons first rest ih =>
    by_cases hmem : first ∈ seen
    · rw [distinctAfter_of_mem h hmem, ih (h.mono (by grind))]
      grind
    · rw [distinctAfter_of_notMem h hmem, List.mem_cons, ih (h.mono (by grind))]
      grind

/-- The rows come in the order of their first places. -/
theorem pairwise_distinctAfter (h : Row.Faithful (seen ++ rows)) :
    (distinctAfter seen rows).Pairwise (Precedes rows) := by
  induction rows generalizing seen with
  | nil => exact List.Pairwise.nil
  | cons first rest ih =>
    by_cases hmem : first ∈ seen
    · rw [distinctAfter_of_mem h hmem]
      have hrest : Row.Faithful (seen ++ rest) := h.mono (by grind)
      refine (ih hrest).imp_of_mem fun {x y} _ hy hprecedes => .later ?_ hprecedes
      -- `first` was seen, and `y` was not.
      rintro rfl
      exact ((mem_distinctAfter_iff hrest).1 hy).2 hmem
    · rw [distinctAfter_of_notMem h hmem]
      have hrest : Row.Faithful (first :: seen ++ rest) := h.mono (by grind)
      have hne : ∀ y ∈ distinctAfter (first :: seen) rest, first ≠ y := by
        rintro y hy rfl
        exact ((mem_distinctAfter_iff hrest).1 hy).2 (List.mem_cons_self ..)
      refine List.pairwise_cons.2 ⟨fun y hy => .here (hne y hy), ?_⟩
      exact (ih hrest).imp_of_mem fun {x y} _ hy hprecedes => .later (hne y hy) hprecedes

theorem mem_distinct_iff (h : Row.Faithful rows) : row ∈ distinct rows ↔ row ∈ rows := by
  have hmem : row ∈ distinctAfter [] rows ↔ row ∈ rows ∧ row ∉ [] := mem_distinctAfter_iff h
  rw [distinct, hmem]
  simp

theorem pairwise_distinct (h : Row.Faithful rows) : (distinct rows).Pairwise (Precedes rows) :=
  pairwise_distinctAfter h

/-! ### Any rows -/

/-- The rows `kept` are those of a list without later copies: a row at the end is left out if an equal
one stands before it. -/
inductive WithoutCopies : List Row → List Row → Prop where
  | nil : WithoutCopies [] []
  | copy {rows kept : List Row} {row : Row} : WithoutCopies rows kept →
      (∃ earlier ∈ rows, Row.same earlier row) → WithoutCopies (rows ++ [row]) kept
  | new {rows kept : List Row} {row : Row} : WithoutCopies rows kept →
      (∀ earlier ∈ rows, ¬ Row.same earlier row) → WithoutCopies (rows ++ [row]) (kept ++ [row])

theorem distinctAfter_concat_of_copy
    (h : ∃ earlier ∈ seen ++ rows, Row.same earlier row) :
    distinctAfter seen (rows ++ [row]) = distinctAfter seen rows := by
  induction rows generalizing seen with
  | nil =>
    rw [List.append_nil] at h
    simp only [List.nil_append, distinctAfter]
    rw [if_pos (List.any_eq_true.2 h)]
  | cons first rest ih =>
    rw [List.cons_append, distinctAfter, distinctAfter]
    split
    · next hseen =>
      obtain ⟨earlier, hmem, hsame⟩ := h
      obtain ⟨source, hsource, hfirst⟩ := List.any_eq_true.1 hseen
      -- A copy of `first` is also one of the row that `first` is a copy of.
      refine ih ?_
      rcases List.mem_append.1 hmem with hmem | hmem
      · exact ⟨earlier, List.mem_append_left _ hmem, hsame⟩
      · rcases List.mem_cons.1 hmem with rfl | hmem
        · exact ⟨source, List.mem_append_left _ hsource, Json.sameFields_trans hfirst hsame⟩
        · exact ⟨earlier, List.mem_append_right _ hmem, hsame⟩
    · obtain ⟨earlier, hmem, hsame⟩ := h
      rw [ih ⟨earlier, by grind, hsame⟩]

theorem distinctAfter_concat_of_new (h : ∀ earlier ∈ seen ++ rows, ¬ Row.same earlier row) :
    distinctAfter seen (rows ++ [row]) = distinctAfter seen rows ++ [row] := by
  induction rows generalizing seen with
  | nil =>
    rw [List.append_nil] at h
    have hnew : ¬ (seen.any (Row.same · row)) = true := by
      rw [List.any_eq_true]
      rintro ⟨earlier, hmem, hsame⟩
      exact h earlier hmem hsame
    simp only [List.nil_append, distinctAfter]
    rw [if_neg hnew]
  | cons first rest ih =>
    rw [List.cons_append, distinctAfter, distinctAfter]
    split
    · exact ih fun earlier hmem => h earlier (by grind)
    · rw [ih fun earlier hmem => h earlier (by grind), List.cons_append]

/-- `distinct` leaves out the later copies of equal rows, and nothing else. -/
theorem withoutCopies_distinct (rows : List Row) : WithoutCopies rows (distinct rows) := by
  induction rows using List.reverseRecOn with
  | nil => exact .nil
  | append_singleton rows row ih =>
    unfold distinct at ih ⊢
    by_cases hcopy : ∃ earlier ∈ rows, Row.same earlier row
    · rw [distinctAfter_concat_of_copy (by simpa using hcopy)]
      exact ih.copy hcopy
    · have hnew : ∀ earlier ∈ rows, ¬ Row.same earlier row :=
        fun earlier hmem hsame => hcopy ⟨earlier, hmem, hsame⟩
      rw [distinctAfter_concat_of_new (by simpa using hnew)]
      exact ih.new hnew

/-- Where no two rows are equal, nothing is left out. -/
theorem WithoutCopies.eq_self {kept : List Row} (h : WithoutCopies rows kept)
    (hrows : rows.Pairwise fun x y => ¬ Row.same x y) : kept = rows := by
  induction h with
  | nil => rfl
  | copy _ hcopy _ =>
    obtain ⟨earlier, hmem, hsame⟩ := hcopy
    exact absurd hsame ((List.pairwise_append.1 hrows).2.2 earlier hmem _ (List.mem_singleton_self _))
  | new _ _ ih => rw [ih (List.pairwise_append.1 hrows).1]

end Store

end NamedQuery
