import ForensicChain.Library.HashChain
import ForensicChain.Library.OrderBy

/-!
Rows that are linked, when they are inserted, to the greatest of the rows before them. Read in
their order they form a chain if and only if each of them came in as the greatest.
-/
namespace LatestChain

open HashChain OrderBy

variable {ρ H β γ : Type*} [LinearOrder β] [LinearOrder γ] {f : ρ → β} {g : ρ → γ}
  {prev : ρ → Option H} {hash : ρ → H} {l : List ρ} {r : ρ}

/-- The hash of the greatest of the rows. -/
def latestHash (f : ρ → β) (g : ρ → γ) (hash : ρ → H) (l : List ρ) : Option H :=
  (l.insertionSort (Desc f g)).head?.map hash

/-- Rows in the order of their inserts, each with the hash of the greatest one before it. -/
inductive LinkedToLatest (f : ρ → β) (g : ρ → γ) (prev : ρ → Option H) (hash : ρ → H) :
    List ρ → Prop
  | nil : LinkedToLatest f g prev hash []
  | snoc {l : List ρ} {r : ρ} (hl : LinkedToLatest f g prev hash l)
      (hr : prev r = latestHash f g hash l) : LinkedToLatest f g prev hash (l ++ [r])

/-- The greatest of some rows is among them. -/
theorem exists_latest (f : ρ → β) (g : ρ → γ) (hash : ρ → H) (hne : l ≠ []) :
    ∃ w ∈ l, latestHash f g hash l = some (hash w) ∧ ∀ y ∈ l, Asc f g y w := by
  cases hs : (l.insertionSort (Desc f g)).head? with
  | none =>
    have hperm := List.perm_insertionSort (Desc f g) l
    rw [List.head?_eq_none_iff.mp hs] at hperm
    exact (hne hperm.symm.eq_nil).elim
  | some w =>
    obtain ⟨hw, hgreatest⟩ := rel_of_head?_insertionSort hs
    exact ⟨w, hw, by rw [latestHash, hs]; rfl, hgreatest⟩

/-- The row before the last insert cannot be read after it: then the hash that it is linked to
would come twice. -/
theorem asc_of_linked (hnd : ((l ++ [r]).map hash).Nodup) (hr : prev r = latestHash f g hash l)
    (h : Linked prev hash none ((l ++ [r]).insertionSort (Asc f g))) :
    ∀ y ∈ l, Asc f g y r := by
  intro y hy
  by_contra hyr
  obtain ⟨w, hw, hlatest, hgreatest⟩ := exists_latest f g hash (List.ne_nil_of_mem hy)
  have hwr : ¬ Asc f g w r := fun hasc => hyr (IsTrans.trans _ _ _ (hgreatest y hy) hasc)
  have hmem : r ∈ (l ++ [r]).insertionSort (Asc f g) := by simp
  have hwmem : w ∈ (l ++ [r]).insertionSort (Asc f g) := by simp [hw]
  have hsorted := List.pairwise_insertionSort (Asc f g) (l ++ [r])
  have hnds : (((l ++ [r]).insertionSort (Asc f g)).map hash).Nodup :=
    ((List.perm_insertionSort _ _).map hash).nodup_iff.mpr hnd
  obtain ⟨before, after, hsplit⟩ := List.append_of_mem hmem
  rw [hsplit] at h hsorted hwmem hnds
  have hafter : w ∈ after := by
    rcases List.mem_append.mp hwmem with hb | hb
    · exact (hwr ((List.pairwise_append.mp hsorted).2.2 w hb r List.mem_cons_self)).elim
    · rcases List.mem_cons.mp hb with rfl | hb
      · exact (hwr ((Std.Total.total (r := Asc f g) w w).elim id id)).elim
      · exact hb
  have hhead : head hash none before = some (hash w) := by
    rw [← hlatest, ← hr]
    exact (linked_append.mp h).2.1.symm
  obtain ⟨b, hb, hbw⟩ := head_mem hhead
  rw [List.map_append, List.nodup_append] at hnds
  exact hnds.2.2 (hash b) (List.mem_map_of_mem hb) (hash w)
    (List.mem_map_of_mem (List.mem_cons_of_mem _ hafter)) hbw

/-- Rows inserted in their order are linked as they stand. -/
theorem LinkedToLatest.linked (h : LinkedToLatest f g prev hash l)
    (hl : l.Pairwise (Follows f g)) : Linked prev hash none l := by
  induction h with
  | nil => trivial
  | @snoc l r _ hr ih =>
    have hpair := (List.pairwise_append.mp hl).1
    rw [linked_concat]
    refine ⟨ih hpair, hr.trans ?_⟩
    cases l using List.reverseRecOn with
    | nil => rfl
    | append_singleton l x =>
      rw [latestHash, head?_insertionSort_desc hpair, head_concat, Option.map_some]

/-- Read in their order, the rows form a chain if and only if the first column never decreased
from one insert to the next. -/
theorem LinkedToLatest.linked_iff (h : LinkedToLatest f g prev hash l)
    (hg : l.Pairwise fun a b => g a < g b) (hnd : (l.map hash).Nodup) :
    Linked prev hash none (l.insertionSort (Asc f g)) ↔ l.Pairwise fun a b => f a ≤ f b := by
  constructor
  · intro hlinked
    induction h with
    | nil => exact .nil
    | @snoc l r _ hr ih =>
      have hlast := asc_of_linked hnd hr hlinked
      rw [insertionSort_concat hlast, linked_concat] at hlinked
      rw [List.map_append] at hnd
      have hpair := ih (List.pairwise_append.mp hg).1 (List.nodup_append.mp hnd).1 hlinked.1
      rw [List.pairwise_append]
      refine ⟨hpair, List.pairwise_singleton _ _, fun y hy q hq => ?_⟩
      rw [List.mem_singleton.mp hq]
      exact (hlast y hy).elim le_of_lt fun he => he.1.le
  · intro hf
    have hfollows : l.Pairwise (Follows f g) := hf.and hg
    rw [insertionSort_asc hfollows]
    exact h.linked hfollows

end LatestChain
