import ForensicChain.Evidence.TempFiles

/-!
Concurrent verifications keep out of each other's temporary files. Every file belongs to the one
request whose id it is named by, and between two steps no directory is empty.
-/
namespace ForensicChain.Evidence

variable {s z : TempState} {t u : TempTree} {q r : TempRequest} {a : TempAction} {x : TempEvent}
  {i : RequestId}

/-- What the file of a request holds where the request waits. -/
def TempRequest.Holds (q : TempRequest) (t : TempTree) : Prop :=
  match q.phase with
  | .authorizing => q.file t = none
  | .reading buffered rest =>
      ∃ written, q.file t = some written ∧ written ++ (buffered ++ rest) = q.content
  | .calling _ => q.file t = some q.content
  | .ended ending => ending ≠ .missing ∧ q.file t = none

structure TempInvariant (s : TempState) : Prop where
  named : ∀ i q, s.requests i = some q → ∃ u, Uuid.parse q.artifactId = some u
  apart : Table.Apart TempRequest.verificationId s.requests
  holds : ∀ i q, s.requests i = some q → q.Holds s.tree
  owned : ∀ d n b, s.tree.read d n = some b →
    ∃ i q, s.requests i = some q ∧ d = q.tempDir ∧ n = q.fileName
  occupied : s.tree.Occupied

theorem TempRequest.fileName_inj :
    q.fileName = r.fileName ↔ q.verificationId = r.verificationId := by
  constructor
  · intro h
    have hlist := congrArg String.toList h
    simp only [fileName, String.toList_append, List.append_cancel_right_eq] at hlist
    exact Uuid.str_injective (String.toList_injective hlist)
  · intro h
    rw [fileName, fileName, h]

/-- Between `makedirs` and `open` nothing else runs, so that the directory is there. -/
theorem TempRequest.openFile_makeDir (q : TempRequest) (t : TempTree) :
    ∃ u, q.openFile (q.makeDir t) = some u :=
  FileTree.write_of_mem (FileTree.mem_makedirs.mpr (.inl rfl))

@[simp]
theorem TempRequest.file_append (q : TempRequest) (t : TempTree) (bytes : List UInt8) :
    q.file (q.append t bytes) = (q.file t).map (· ++ bytes) := FileTree.read_modify_self _

@[simp]
theorem TempRequest.file_cleanUp (q : TempRequest) (t : TempTree) : q.file (q.cleanUp t) = none :=
  FileTree.read_prune_self

/-- A request stays the request that it is. -/
theorem TempStep.identity (hs : TempStep t q a u r) :
    r.artifactId = q.artifactId ∧ r.verificationId = q.verificationId ∧ r.content = q.content := by
  cases hs <;> exact ⟨rfl, rfl, rfl⟩

/-- A step writes and removes no file but that of its request. -/
theorem TempStep.read_of_ne (hs : TempStep t q a u r) {d n : String}
    (hne : ¬ (d = q.tempDir ∧ n = q.fileName)) : u.read d n = t.read d n := by
  cases hs with
  | refuse => rfl
  | openFile hp hw => exact (FileTree.read_write_of_ne hw hne).trans FileTree.read_makedirs
  | openMissing => exact (FileTree.read_prune_of_ne hne).trans FileTree.read_makedirs
  | openRaised => exact (FileTree.read_prune_of_ne hne).trans FileTree.read_makedirs
  | write => exact FileTree.read_modify_of_ne _ hne
  | closeFile => exact FileTree.read_modify_of_ne _ hne
  | returned => rfl
  | answer => exact FileTree.read_prune_of_ne hne
  | fileMissing => exact FileTree.read_prune_of_ne hne
  | raised => exact FileTree.read_prune_of_ne hne
  | cancelled => exact FileTree.read_prune_of_ne hne

theorem occupied_cleanUp (h : t.Occupied) : (q.cleanUp t).Occupied :=
  FileTree.occupied_prune fun e he _ => h e he

theorem occupied_cleanUp_makeDir (h : t.Occupied) : (q.cleanUp (q.makeDir t)).Occupied := by
  apply FileTree.occupied_prune
  intro e he hne
  obtain ⟨n, hn⟩ := h e ((FileTree.mem_makedirs.mp he).resolve_left hne)
  exact ⟨n, by rwa [TempRequest.makeDir, FileTree.read_makedirs]⟩

/-- A step leaves no empty directory. -/
theorem TempStep.occupied (hs : TempStep t q a u r) (h : t.Occupied) : u.Occupied := by
  cases hs with
  | refuse => exact h
  | openFile hp hw => exact h.write hw
  | openMissing => exact occupied_cleanUp_makeDir h
  | openRaised => exact occupied_cleanUp_makeDir h
  | write => exact h.modify _
  | closeFile => exact h.modify _
  | returned => exact h
  | answer => exact occupied_cleanUp h
  | fileMissing => exact occupied_cleanUp h
  | raised => exact occupied_cleanUp h
  | cancelled => exact occupied_cleanUp h

theorem TempStep.holds (hs : TempStep t q a u r) (h : q.Holds t) : r.Holds u := by
  have hclean : ∀ v : TempTree, q.file (q.cleanUp v) = none := q.file_cleanUp
  unfold TempRequest.Holds at h
  cases hs with
  | refuse hp he =>
    rw [hp] at h
    rcases he with rfl | rfl <;> exact ⟨nofun, h⟩
  | openFile hp hw => exact ⟨[], FileTree.read_write_self hw, rfl⟩
  | openMissing hp hw =>
    obtain ⟨v, hv⟩ := q.openFile_makeDir t
    rw [hv] at hw
    cases hw
  | openRaised => exact ⟨nofun, hclean _⟩
  | write hp hc hl hb =>
    rename_i buffered rest chunk flushed kept
    rw [hp] at h
    obtain ⟨written, hfile, hcontent⟩ := h
    refine ⟨written ++ flushed, ?_, ?_⟩
    · exact (q.file_append t flushed).trans (by rw [hfile, Option.map_some])
    · have hbytes : flushed ++ (kept ++ rest) = buffered ++ (chunk ++ rest) := by
        rw [← List.append_assoc, ← hb, List.append_assoc]
      rw [List.append_assoc, hbytes]
      exact hcontent
  | closeFile hp =>
    rename_i buffered
    rw [hp] at h
    obtain ⟨written, hfile, hcontent⟩ := h
    have hwhole : written ++ buffered = q.content := by simpa using hcontent
    exact (q.file_append t buffered).trans (by rw [hfile, Option.map_some, hwhole]; rfl)
  | returned hp =>
    rw [hp] at h
    exact h
  | answer => exact ⟨nofun, hclean _⟩
  | fileMissing hp hf =>
    rw [hp] at h
    rw [h] at hf
    cases hf
  | raised => exact ⟨nofun, hclean _⟩
  | cancelled => exact ⟨nofun, hclean _⟩

theorem TempRequest.Holds.frame (h : q.Holds t) (hfile : q.file u = q.file t) : q.Holds u := by
  unfold TempRequest.Holds at h ⊢
  rw [hfile]
  exact h

theorem TempInvariant.step (h : TempInvariant s) (hs : tempSystem.step s x z) :
    TempInvariant z := by
  cases hs with
  | @arrive i verificationId artifactId artifactUuid content hi ha hf =>
    have hfree : ∀ b, s.tree.read artifactId (verificationId.str ++ ".bin") ≠ some b := by
      intro b hb
      obtain ⟨j, q, hq, _, hname⟩ := h.owned _ _ _ hb
      have hsame : verificationId = q.verificationId :=
        (TempRequest.fileName_inj (q := ⟨artifactId, verificationId, content, .authorizing⟩)).mp
          hname
      exact hf j q hq hsame.symm
    refine ⟨Table.forall_update (fun j _ q hq => h.named j q hq) ⟨_, ha⟩,
      h.apart.update fun j q _ hq => hf j q hq, ?_, ?_, h.occupied⟩
    · exact Table.forall_update (fun j _ q hq => h.holds j q hq)
        (Option.eq_none_iff_forall_ne_some.mpr hfree)
    · intro d n b hb
      obtain ⟨j, q, hq, hname⟩ := h.owned d n b hb
      exact ⟨j, q, Table.update_of_free hi hq, hname⟩
  | @resume i q a t r hq hs =>
    obtain ⟨hart, hver, _⟩ := hs.identity
    refine ⟨Table.forall_update (fun j _ p hp => h.named j p hp) (hart ▸ h.named i q hq),
      h.apart.update_same hq hver, ?_, ?_, hs.occupied h.occupied⟩
    · refine Table.forall_update (fun j hj p hp => ?_) (hs.holds (h.holds i q hq))
      -- another request has another file
      apply (h.holds j p hp).frame
      apply hs.read_of_ne
      rintro ⟨_, hname⟩
      exact hj (h.apart j i p q hp hq (TempRequest.fileName_inj.mp hname))
    · intro d n b hb
      by_cases hown : d = q.tempDir ∧ n = q.fileName
      · refine ⟨i, r, Function.update_self _ _ _, ?_⟩
        rw [TempRequest.tempDir, TempRequest.fileName, hart, hver]
        exact hown
      · obtain ⟨j, p, hp, hname⟩ := h.owned d n b ((hs.read_of_ne hown).symm.trans hb)
        have hj : j ≠ i := by
          rintro rfl
          obtain rfl := Option.some.inj (hp.symm.trans hq)
          exact hown hname
        exact ⟨j, p, (Function.update_of_ne hj _ _).trans hp, hname⟩

theorem tempInvariant_reachable (h : tempSystem.Reachable s) : TempInvariant s := by
  apply h.invariant
  · rintro s ⟨htree, hnone⟩
    refine ⟨?_, ?_, ?_, ?_, ?_⟩
    · intro i q hi
      simp [hnone] at hi
    · intro i j q r hi
      simp [hnone] at hi
    · intro i q hi
      simp [hnone] at hi
    · intro d n b hb
      simp [htree, FileTree.read] at hb
    · intro d hd
      rw [htree] at hd
      exact (Finmap.notMem_empty hd).elim
  · exact fun s x z hs hstep => hs.step hstep

/-- The path of a temporary file goes down two names from `STORAGE_BASE/tmp`, and not elsewhere. -/
theorem TempInvariant.components (h : TempInvariant s) (hq : s.requests i = some q) :
    '/' ∉ q.tempDir.toList ∧ '/' ∉ q.fileName.toList ∧ q.tempDir ∉ ["", ".", ".."] := by
  obtain ⟨u, hu⟩ := h.named i q hq
  refine ⟨Uuid.notMem_of_parse (by decide) hu, ?_, ?_⟩
  · have hid : '/' ∉ q.verificationId.str.toList := Uuid.str_notMem _ (by decide) (by decide)
    simpa [TempRequest.fileName] using hid
  · intro hmem
    simp only [List.mem_cons, List.not_mem_nil, or_false] at hmem
    rcases hmem with hd | hd | hd <;> rw [TempRequest.tempDir] at hd <;> rw [hd] at hu <;> cases hu

theorem TempInvariant.whole (h : TempInvariant s) {call : RemoteCall} (hq : s.requests i = some q)
    (hp : q.phase = .calling call) : q.file s.tree = some q.content := by
  have hholds := h.holds i q hq
  rw [TempRequest.Holds, hp] at hholds
  exact hholds

theorem TempInvariant.present (h : TempInvariant s) (hq : s.requests i = some q)
    (hfile : q.HasFile) : ∃ written, q.file s.tree = some written ∧ written <+: q.content := by
  rcases hfile with ⟨buffered, rest, hp⟩ | ⟨call, hp⟩
  · have hholds := h.holds i q hq
    rw [TempRequest.Holds, hp] at hholds
    obtain ⟨written, hw, hcontent⟩ := hholds
    exact ⟨written, hw, _, hcontent⟩
  · exact ⟨q.content, h.whole hq hp, List.prefix_refl _⟩

/-- The steps of the other requests leave a file as it is. -/
theorem TempInvariant.file_of_ne (h : TempInvariant s) (hq : s.requests i = some q)
    (hs : tempSystem.step s x z) (hx : x.requestId ≠ i) : q.file z.tree = q.file s.tree := by
  cases hs with
  | arrive => rfl
  | @resume j r a t r' hr hs =>
    apply hs.read_of_ne
    rintro ⟨_, hname⟩
    exact hx (h.apart j i r q hr hq (TempRequest.fileName_inj.mp hname).symm)

theorem TempInvariant.not_missing (h : TempInvariant s) (hq : s.requests i = some q) :
    q.phase ≠ .ended .missing := by
  intro hp
  have hholds := h.holds i q hq
  rw [TempRequest.Holds, hp] at hholds
  exact hholds.1 rfl

/-- Without a request that has a file there is no file, and so no directory. -/
theorem TempInvariant.tree_empty (h : TempInvariant s)
    (hidle : ∀ i q, s.requests i = some q → ¬ q.HasFile) : s.tree = ∅ := by
  apply h.occupied.eq_empty
  intro d n
  cases hb : s.tree.read d n with
  | none => rfl
  | some b =>
    obtain ⟨i, q, hq, rfl, rfl⟩ := h.owned d n b hb
    have hholds := h.holds i q hq
    unfold TempRequest.Holds at hholds
    split at hholds
    · exact hb.symm.trans hholds
    · rename_i buffered rest hp
      exact (hidle i q hq (.inl ⟨buffered, rest, hp⟩)).elim
    · rename_i call hp
      exact (hidle i q hq (.inr ⟨call, hp⟩)).elim
    · exact hb.symm.trans hholds.2

theorem TempRequest.InProgress.of_authorizing (h : q.phase = .authorizing) : q.InProgress := by
  intro ending hended
  rw [h] at hended
  cases hended

theorem TempRequest.InProgress.of_hasFile (h : q.HasFile) : q.InProgress := by
  intro ending hended
  rcases h with ⟨_, _, hp⟩ | ⟨_, hp⟩ <;> rw [hp] at hended <;> cases hended

/-- From `open` to its `finally` a request has its file for itself, whole once a call is awaited;
no request misses its directory or its file; and nothing is left when none is in progress. -/
theorem tempFiles_undisturbed (h : tempSystem.Reachable s) :
    (∀ i q, s.requests i = some q → q.HasFile →
      ∃ written, q.file s.tree = some written ∧ written <+: q.content ∧
        ∀ x z, tempSystem.step s x z → x.requestId ≠ i → q.file z.tree = some written) ∧
    (∀ i q call, s.requests i = some q → q.phase = .calling call →
      q.file s.tree = some q.content) ∧
    (∀ i q, s.requests i = some q → q.phase ≠ .ended .missing) ∧
    ((∀ i q, s.requests i = some q → ¬ q.InProgress) → s.tree = ∅) := by
  have hinv := tempInvariant_reachable h
  refine ⟨?_, fun i q call hq hp => hinv.whole hq hp, fun i q hq => hinv.not_missing hq, ?_⟩
  · intro i q hq hfile
    obtain ⟨written, hw, hprefix⟩ := hinv.present hq hfile
    refine ⟨written, hw, hprefix, ?_⟩
    intro x z hstep hx
    exact (hinv.file_of_ne hq hstep hx).trans hw
  · intro hidle
    exact hinv.tree_empty fun i q hq hfile => hidle i q hq (.of_hasFile hfile)

def idleState : TempState := ⟨∅, fun _ => none⟩

/-- A verification of one and the same artifact. -/
def sharedRequest (verificationId : Uuid) (content : List UInt8) : TempRequest :=
  ⟨(Uuid.ofNat 7).str, verificationId, content, .authorizing⟩

/-- Both have opened their files when the second is cancelled and the first goes on. -/
theorem shared_run : ∃ s, tempSystem.Reachable s ∧
    s.requests 0 = some ((sharedRequest (.ofNat 1) [1, 2, 3]).next (.calling .recomputeHash)) ∧
    s.requests 1 = some ((sharedRequest (.ofNat 2) [4]).next (.ended .cancelled)) := by
  have h0 : tempSystem.Reachable idleState := .init ⟨rfl, fun _ => rfl⟩
  have h1 : tempSystem.Reachable (idleState.setRequest 0 (sharedRequest (.ofNat 1) [1, 2, 3])) :=
    h0.step (.arrive _ rfl (Uuid.parse_str _) nofun)
  have hfresh : ∀ j q, (idleState.setRequest 0 (sharedRequest (.ofNat 1) [1, 2, 3])).requests j =
      some q → q.verificationId ≠ .ofNat 2 := by
    intro j q hq
    rcases Table.update_some hq with ⟨_, rfl⟩ | ⟨_, hq⟩
    · exact (by decide : Uuid.ofNat 1 ≠ .ofNat 2)
    · cases hq
  have h2 : tempSystem.Reachable ((idleState.setRequest 0
      (sharedRequest (.ofNat 1) [1, 2, 3])).setRequest 1 (sharedRequest (.ofNat 2) [4])) :=
    h1.step (.arrive _ rfl (Uuid.parse_str _) hfresh)
  obtain ⟨u, hu⟩ := (sharedRequest (.ofNat 1) [1, 2, 3]).openFile_makeDir ∅
  have h3 := h2.step (.resume (i := 0) rfl (.openFile rfl hu))
  obtain ⟨v, hv⟩ := (sharedRequest (.ofNat 2) [4]).openFile_makeDir u
  have h4 := h3.step (.resume (i := 1) rfl (.openFile rfl hv))
  have h5 := h4.step (.resume (i := 0) rfl
    (@TempStep.write _ _ [] [] [1, 2, 3] [1] [2, 3] rfl (List.cons_ne_nil _ _) (by decide) rfl))
  have h6 := h5.step (.resume (i := 1) rfl (.cancelled (.inl ⟨_, _, rfl⟩)))
  have h7 := h6.step (.resume (i := 0) rfl (.closeFile rfl))
  exact ⟨_, h7, rfl, rfl⟩

theorem tempFiles_undisturbed_shared : ∃ s, tempSystem.Reachable s ∧
    (sharedRequest (.ofNat 1) [1, 2, 3]).file s.tree = some [1, 2, 3] := by
  obtain ⟨s, hs, hfirst, -⟩ := shared_run
  have hwhole := (tempFiles_undisturbed hs).2.1 0 _ .recomputeHash hfirst rfl
  exact ⟨s, hs, hwhole⟩

end ForensicChain.Evidence
