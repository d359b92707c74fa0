import Mathlib.Data.List.Sort
import Mathlib.Data.List.Nodup
import Mathlib.Order.Lattice

/-! The pages of a table in falling order of a key. A page begins after the last row of the page
before it, so a listing needs no view of the table but the one it has at each request. -/

namespace Relux.Keyset

variable {α K : Type} [LinearOrder K]

def Ahead (mark : Option K) (k : K) : Prop := ∀ c, mark = some c → k < c

theorem ahead_none (k : K) : Ahead none k := by
  intro c hc
  cases hc

theorem ahead_some {c k : K} : Ahead (some c) k ↔ k < c := by
  constructor
  · intro h
    exact h c rfl
  · intro h d hd
    rw [← Option.some.inj hd]
    exact h

instance (mark : Option K) (k : K) : Decidable (Ahead mark k) :=
  match mark with
  | none => .isTrue (ahead_none k)
  | some c => decidable_of_iff (k < c) ahead_some.symm

def remaining (key : α → K) (mark : Option K) (rows : List α) : List α :=
  (rows.filter (fun x => decide (Ahead mark (key x)))).insertionSort (fun x y => key y ≤ key x)

def page (key : α → K) (mark : Option K) (size : Nat) (rows : List α) : List α :=
  (remaining key mark rows).take size

def reached (key : α → K) (items : List α) : Option K := items.getLast?.map key

variable {x : α}

section
variable {key : α → K} {mark : Option K} {size : Nat} {rows : List α}

theorem mem_remaining : x ∈ remaining key mark rows ↔ x ∈ rows ∧ Ahead mark (key x) := by
  unfold remaining
  rw [List.mem_insertionSort, List.mem_filter, decide_eq_true_iff]

theorem remaining_nodup {β : Type} {f : α → β} (h : (rows.map f).Nodup) :
    ((remaining key mark rows).map f).Nodup := by
  have hperm := List.perm_insertionSort (fun x y => key y ≤ key x)
    (rows.filter (fun x => decide (Ahead mark (key x))))
  exact (hperm.map f).nodup_iff.mpr (h.sublist (List.filter_sublist.map f))

theorem remaining_pairwise (h : (rows.map key).Nodup) :
    (remaining key mark rows).Pairwise (fun x y => key y < key x) := by
  have hsorted : (remaining key mark rows).Pairwise (fun x y => key y ≤ key x) :=
    List.pairwise_insertionSort _ _
  have hne : (remaining key mark rows).Pairwise (fun x y => key x ≠ key y) :=
    List.pairwise_map.mp (remaining_nodup h)
  refine (hsorted.and hne).imp ?_
  rintro x y ⟨hle, hne⟩
  exact lt_of_le_of_ne hle (Ne.symm hne)

theorem mem_of_mem_page (h : x ∈ page key mark size rows) : x ∈ rows ∧ Ahead mark (key x) :=
  mem_remaining.mp (List.mem_of_mem_take h)

theorem page_eq_nil_iff (hsize : 0 < size) :
    page key mark size rows = [] ↔ ∀ x ∈ rows, ¬Ahead mark (key x) := by
  unfold page
  rw [List.take_eq_nil_iff]
  constructor
  · rintro (hzero | hnil) x hx hahead
    · omega
    · have hmem := mem_remaining.mpr ⟨hx, hahead⟩
      rw [hnil] at hmem
      cases hmem
  · intro h
    right
    rw [List.eq_nil_iff_forall_not_mem]
    intro x hx
    obtain ⟨hrow, hahead⟩ := mem_remaining.mp hx
    exact h x hrow hahead

theorem mem_front_iff {front rest : List α}
    (h : (front ++ rest).Pairwise (fun x y => key y < key x)) (hne : front ≠ [])
    (hx : x ∈ front ++ rest) : x ∈ front ↔ ¬key x < key (front.getLast hne) := by
  obtain ⟨hfront, -, hcross⟩ := List.pairwise_append.mp h
  constructor
  · intro hmem hlt
    rw [← List.dropLast_append_getLast hne] at hfront hmem
    rcases List.mem_append.mp hmem with hinit | hlast
    · have hbelow := (List.pairwise_append.mp hfront).2.2 x hinit _ List.mem_cons_self
      exact lt_asymm hlt hbelow
    · rw [List.mem_singleton.mp hlast] at hlt
      exact lt_irrefl _ hlt
  · intro hnot
    rcases List.mem_append.mp hx with hmem | hrest
    · exact hmem
    · exact absurd (hcross _ (List.getLast_mem hne) x hrest) hnot

theorem mem_page_iff (h : (rows.map key).Nodup) (hne : page key mark size rows ≠ [])
    (hx : x ∈ rows) : x ∈ page key mark size rows ↔
      Ahead mark (key x) ∧ ¬Ahead (reached key (page key mark size rows)) (key x) := by
  have hlast : reached key (page key mark size rows) =
      some (key ((page key mark size rows).getLast hne)) := by
    unfold reached
    rw [List.getLast?_eq_some_getLast hne, Option.map_some]
  rw [hlast, ahead_some]
  have hsplit : page key mark size rows ++ (remaining key mark rows).drop size =
      remaining key mark rows := List.take_append_drop size _
  have hfall : (page key mark size rows ++ (remaining key mark rows).drop size).Pairwise
      (fun x y => key y < key x) := by
    rw [hsplit]
    exact remaining_pairwise h
  constructor
  · intro hmem
    refine ⟨(mem_of_mem_page hmem).2, ?_⟩
    exact (mem_front_iff hfall hne (List.mem_append_left _ hmem)).mp hmem
  · rintro ⟨hahead, hnot⟩
    have hmem : x ∈ page key mark size rows ++ (remaining key mark rows).drop size := by
      rw [hsplit]
      exact mem_remaining.mpr ⟨hx, hahead⟩
    exact (mem_front_iff hfall hne hmem).mpr hnot

theorem ahead_of_reached (hne : page key mark size rows ≠ []) {k : K}
    (h : Ahead (reached key (page key mark size rows)) k) : Ahead mark k := by
  have hlast := (mem_of_mem_page (List.getLast_mem hne)).2
  have hlt : k < key ((page key mark size rows).getLast hne) := by
    refine h _ ?_
    unfold reached
    rw [List.getLast?_eq_some_getLast hne, Option.map_some]
  intro c hc
  exact hlt.trans (hlast c hc)

theorem page_nodup {β : Type} {f : α → β} (h : (rows.map f).Nodup) :
    ((page key mark size rows).map f).Nodup :=
  (remaining_nodup h).sublist ((List.take_sublist size _).map f)

end

/-- The pages of a listing: the table as each request finds it, up to the first empty page. -/
def listing (key : α → K) (size : Nat) : Option K → List (List α) → List (List α)
  | _, [] => []
  | mark, rows :: tables =>
    let items := page key mark size rows
    items :: if items.isEmpty then [] else listing key size (reached key items) tables

theorem listing_cons {key : α → K} {mark : Option K} {size : Nat} {rows : List α}
    {tables : List (List α)} (h : page key mark size rows ≠ []) :
    listing key size mark (rows :: tables) = page key mark size rows ::
      listing key size (reached key (page key mark size rows)) tables := by
  have hfalse : ¬(page key mark size rows).isEmpty = true := by
    rw [List.isEmpty_iff]
    exact h
  change page key mark size rows :: (if (page key mark size rows).isEmpty then _ else _) = _
  rw [if_neg hfalse]

/-- No change between two requests takes the row `id` across the mark of the listing. -/
def Steady {ι : Type} (key : α → K) (ident : α → ι) (size : Nat) (id : ι) :
    Option K → List (List α) → Prop
  | _, [] => True
  | mark, rows :: tables =>
    page key mark size rows ≠ [] →
      (∀ rows' ∈ tables.head?, ∀ x ∈ rows, ∀ y ∈ rows', ident x = id → ident y = id →
        (Ahead (reached key (page key mark size rows)) (key x) ↔
          Ahead (reached key (page key mark size rows)) (key y))) ∧
      Steady key ident size id (reached key (page key mark size rows)) tables

section
variable {ι : Type} {key : α → K} {ident : α → ι} {size : Nat} {id : ι}

structure Shows (key : α → K) (ident : α → ι) (id : ι) (rows : List α) : Prop where
  idents : (rows.map ident).Nodup
  keys : (rows.map key).Nodup
  present : ∃ x ∈ rows, ident x = id

theorem count_page {mark : Option K} {rows : List α} [DecidableEq ι] (h : Shows key ident id rows)
    (hx : x ∈ rows) (hid : ident x = id) :
    (x ∈ page key mark size rows → ((page key mark size rows).map ident).count id = 1) ∧
      (x ∉ page key mark size rows → ((page key mark size rows).map ident).count id = 0) := by
  constructor
  · intro hmem
    exact List.count_eq_one_of_mem (page_nodup h.idents) (List.mem_map.mpr ⟨x, hmem, hid⟩)
  · intro hnot
    refine List.count_eq_zero.mpr (fun hmem => ?_)
    obtain ⟨y, hy, hidy⟩ := List.mem_map.mp hmem
    have heq : y = x :=
      List.inj_on_of_nodup_map h.idents (mem_of_mem_page hy).1 hx (hidy.trans hid.symm)
    exact hnot (heq ▸ hy)

theorem listing_count [DecidableEq ι] {tables : List (List α)} (hsize : 0 < size) :
    ∀ {mark : Option K}, (∀ rows ∈ tables, Shows key ident id rows) →
      Steady key ident size id mark tables →
      (listing key size mark tables).getLast? = some [] →
      ∀ rows ∈ tables.head?, ∀ x ∈ rows, ident x = id →
        ((listing key size mark tables).flatten.map ident).count id =
          if Ahead mark (key x) then 1 else 0 := by
  induction tables with
  | nil =>
    intro mark _ _ _ rows hrows
    cases hrows
  | cons rows tables ih =>
    intro mark hshows hsteady hlast rows' hrows' x hx hid
    obtain rfl : rows = rows' := Option.some.inj hrows'
    have hshow := hshows rows List.mem_cons_self
    by_cases hempty : page key mark size rows = []
    · have hnot := (page_eq_nil_iff hsize).mp hempty x hx
      rw [if_neg hnot]
      simp [listing, hempty]
    · rw [listing_cons hempty] at hlast ⊢
      obtain ⟨hsame, hrest⟩ := hsteady hempty
      rw [List.getLast?_cons] at hlast
      cases tables with
      | nil => exact absurd (Option.some.inj hlast) hempty
      | cons next tables =>
        obtain ⟨y, hy, hidy⟩ := (hshows next (List.mem_cons_of_mem _ List.mem_cons_self)).present
        have hlast' : (listing key size (reached key (page key mark size rows))
            (next :: tables)).getLast? = some [] := by
          cases hget : (listing key size (reached key (page key mark size rows))
              (next :: tables)).getLast? with
          | none => cases List.getLast?_eq_none_iff.mp hget
          | some last =>
            rw [hget] at hlast
            exact hlast
        have hcount := ih (fun t ht => hshows t (List.mem_cons_of_mem _ ht)) hrest hlast' next rfl
          y hy hidy
        have hiff := hsame next rfl x hx y hy hid hidy
        have hpage : (x ∈ page key mark size rows →
            ((page key mark size rows).map ident).count id = 1) ∧ (x ∉ page key mark size rows →
            ((page key mark size rows).map ident).count id = 0) := count_page hshow hx hid
        obtain ⟨hin, hout⟩ := hpage
        rw [mem_page_iff hshow.keys hempty hx] at hin hout
        rw [List.flatten_cons, List.map_append, List.count_append, hcount]
        by_cases hahead : Ahead mark (key x)
        · rw [if_pos hahead]
          by_cases hstill : Ahead (reached key (page key mark size rows)) (key x)
          · rw [if_pos (hiff.mp hstill), hout (fun h => h.2 hstill)]
          · rw [if_neg (fun h => hstill (hiff.mpr h)), hin ⟨hahead, hstill⟩]
        · have hgone : ¬Ahead (reached key (page key mark size rows)) (key x) :=
            fun h => hahead (ahead_of_reached hempty h)
          rw [if_neg hahead, if_neg (fun h => hgone (hiff.mpr h)), hout (fun h => hahead h.1)]

end

end Relux.Keyset
