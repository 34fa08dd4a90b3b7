import HouseStyle.Proofs.Portfolio.Consensus
import HouseStyle.Proofs.Portfolio.Consistency

/-!
# Syncs converge

Once every project has been synced with its store, what the portfolio holds is a matter of the
stores. The occurrences of a project are those of the patterns in its store, and whatever an
aggregation says is made of the occurrences of its signature, or of the signature itself. It does
not matter how the projects learned, in which order they were synced, and where syncs broke off.
-/

namespace HouseStyle

/-! ## What signatures and shares determine -/

namespace PatternContent

/-- A signature begins with the name of the category. -/
lemma takeWhile_signature (content : PatternContent) :
    content.signature.toList.takeWhile (· != ':') = content.category.name.toList := by
  cases content <;> simp [signature, slot, value, category, Category.name]

lemma category_of_signature {a b : PatternContent} (h : a.signature = b.signature) :
    a.category.name = b.category.name := by
  have hnames := congrArg (fun text : String => text.toList.takeWhile (· != ':')) h
  simp only [takeWhile_signature] at hnames
  exact String.toList_inj.mp hnames

end PatternContent

/-- An occurrence is read from what its row says beside the time. -/
lemma Occurrence.ofRow_congr {a b : OccurrenceRow} (h : a.share = b.share) :
    ofRow a = ofRow b := by
  simp only [OccurrenceRow.share, Share.mk.injEq] at h
  obtain ⟨-, hproject, hpattern, hfrequency, hconfidence, hlanguages⟩ := h
  simp only [ofRow, hproject, hpattern, hfrequency, hconfidence, hlanguages]

lemma Occurrence.mapM_ofRow_congr {rows rows' : List OccurrenceRow}
    (h : rows.map (·.share) = rows'.map (·.share)) : rows.mapM ofRow = rows'.mapM ofRow := by
  induction rows generalizing rows' with
  | nil =>
    obtain rfl := List.map_eq_nil_iff.mp h.symm
    rfl
  | cons row rows ih =>
    cases rows' with
    | nil => cases h
    | cons row' rows' =>
      obtain ⟨hfirst, hrest⟩ := List.cons.inj h
      rw [List.mapM_cons, List.mapM_cons, ofRow_congr hfirst, ih hrest]

/-! ## Portfolios that hold the same -/

/-- Two rows of one signature that agree in all but the description, the revision and the times.
Each consensus is that of the projects up to the tolerance, and unless there are very many projects
both are the same. -/
structure AggregationRow.Alike (linked : Nat) (a b : AggregationRow) : Prop where
  signature : a.signature = b.signature
  category : a.category = b.category
  confidence : a.aggregatedConfidence = b.aggregatedConfidence
  projects : a.occurrenceCount = b.occurrenceCount
  languages : a.languages = b.languages
  consensus : ∃ score, sameConsensus score a.consensusScore = true ∧
    sameConsensus score b.consensusScore = true
  identical : linked < 2 ^ 24 → a.consensusScore = b.consensusScore

/-- Two portfolios with the same occurrences but for their times, aggregations of the same
signatures that are alike, and the same checkpoints. -/
structure Portfolio.Alike (one two : Portfolio) : Prop where
  occurrences : (one.occurrences.map (·.share)).Perm (two.occurrences.map (·.share))
  aggregations : List.Forall₂ (AggregationRow.Alike one.projects.length) one.snapshot two.snapshot
  checkpoints : ∀ id, one.checkpoint? id = two.checkpoint? id

/-- Rows with the same keys side by side, whatever rows of one key have in common. -/
lemma forall₂_of_map_eq {α β γ : Type} {key : α → γ} {key' : β → γ} {related : α → β → Prop}
    {xs : List α} {ys : List β} (hkeys : xs.map key = ys.map key')
    (h : ∀ x ∈ xs, ∀ y ∈ ys, key x = key' y → related x y) : List.Forall₂ related xs ys := by
  induction xs generalizing ys with
  | nil =>
    obtain rfl := List.map_eq_nil_iff.mp hkeys.symm
    exact .nil
  | cons x xs ih =>
    cases ys with
    | nil => cases hkeys
    | cons y ys =>
      obtain ⟨hfirst, hrest⟩ := List.cons.inj hkeys
      exact .cons (h x (by simp) y (by simp) hfirst)
        (ih hrest fun x' hx y' hy => h x' (by simp [hx]) y' (by simp [hy]))

namespace Portfolio

variable {one two : Portfolio}

/-- The occurrences of a signature are sorted alike, whatever order they are stored in. -/
lemma occurrencesFor_shares (consistent : one.Consistent) (consistent' : two.Consistent)
    (shares : (one.occurrences.map (·.share)).Perm (two.occurrences.map (·.share)))
    (signature : String) : (one.occurrencesFor signature).map (·.share) =
      (two.occurrencesFor signature).map (·.share) := by
  have hfilter : ∀ portfolio : Portfolio,
      ((portfolio.occurrencesFor signature).map (·.share)).Perm
        ((portfolio.occurrences.map (·.share)).filter (·.signature == signature)) := by
    intro portfolio
    rw [List.filter_map]
    exact (portfolio.occurrencesFor_perm signature).map _
  have hsorted : ∀ portfolio : Portfolio, portfolio.Consistent →
      ((portfolio.occurrencesFor signature).map (·.share)).Pairwise fun a b =>
        a.projectId < b.projectId ∨ a.projectId = b.projectId ∧ a.patternId < b.patternId :=
    fun portfolio consistent =>
      List.pairwise_map.mpr (consistent.occurrencesFor_ordered signature)
  have hperm := ((hfilter one).trans (shares.filter _)).trans (hfilter two).symm
  refine hperm.eq_of_pairwise ?_ (hsorted one consistent) (hsorted two consistent')
  intro a b _ _ hab hba
  exfalso
  rcases hab with hab | ⟨hsame, hab⟩
  · rcases hba with hba | ⟨hsame, -⟩
    · exact lt_asymm hab hba
    · exact lt_irrefl _ (hsame ▸ hab)
  · rcases hba with hba | ⟨-, hba⟩
    · exact lt_irrefl _ (hsame ▸ hba)
    · exact lt_asymm hab hba

/-- Which projects have an occurrence of a signature can be told from the shares. -/
lemma exhibitingIds_congr (ids : one.activeIds = two.activeIds)
    (shares : (one.occurrences.map (·.share)).Perm (two.occurrences.map (·.share)))
    (signature : String) : one.exhibitingIds signature = two.exhibitingIds signature := by
  have hshares : ∀ (portfolio : Portfolio) id,
      (∃ o ∈ portfolio.occurrences, o.signature = signature ∧ o.projectId = id) ↔
        ∃ share ∈ portfolio.occurrences.map (·.share),
          share.signature = signature ∧ share.projectId = id := by
    intro portfolio id
    simp only [List.mem_map, exists_exists_and_eq_and]
    rfl
  ext id
  simp only [exhibitingIds, Finset.mem_filter, ids, hshares, shares.mem_iff]

/-- Among few projects, a row has the consensus of its signature. -/
lemma consensusScore_eq (consistent : one.Consistent) (few : one.projects.length < 2 ^ 24)
    {row : AggregationRow} (hrow : row ∈ one.aggregations) :
    row.consensusScore = Decimal.unsignedZero
      (consensus (one.exhibitingIds row.signature).card one.activeIds.card) := by
  obtain ⟨exhibiting, active, hexhibiting, hactive, hscore⟩ := (consistent.proper row hrow).share
  have hscored := (consistent.agreesOn row.signature).scored row hrow rfl
  have hle : one.activeIds.card ≤ one.projects.length := by
    refine (List.toFinset_card_le _).trans ?_
    rw [List.length_map]
    exact List.length_filter_le _ _
  rw [hscore] at hscored ⊢
  exact consensus_eq (Finset.card_le_card (Finset.filter_subset _ _)) (by omega) hexhibiting
    (by omega) hscored

theorem aggregations_alike (consistent : one.Consistent) (consistent' : two.Consistent)
    (count : two.projects.length = one.projects.length) (ids : one.activeIds = two.activeIds)
    (shares : (one.occurrences.map (·.share)).Perm (two.occurrences.map (·.share)))
    {a b : AggregationRow} (ha : a ∈ one.aggregations) (hb : b ∈ two.aggregations)
    (hsame : a.signature = b.signature) : AggregationRow.Alike one.projects.length a b := by
  have hrow := Table.lookup_of_mem AggregationRow.signature consistent.distinct ha
  have hrow' := Table.lookup_of_mem AggregationRow.signature consistent'.distinct hb
  obtain ⟨occurrences, read, sums, languages⟩ := (consistent.aggregated a.signature).sums a hrow
  obtain ⟨occurrences', read', sums', languages'⟩ :=
    (consistent'.aggregated b.signature).sums b hrow'
  obtain rfl : occurrences = occurrences' := by
    rw [Occurrence.mapM_ofRow_congr (occurrencesFor_shares consistent consistent' shares _),
      hsame] at read
    exact Except.ok.inj (read.symm.trans read')
  obtain ⟨content, hcontent, hcategory⟩ := (consistent.proper a ha).category
  obtain ⟨content', hcontent', hcategory'⟩ := (consistent'.proper b hb).category
  have hscored := (consistent.agreesOn a.signature).scored a ha rfl
  have hscored' := (consistent'.agreesOn b.signature).scored b hb rfl
  rw [← hsame, ← exhibitingIds_congr ids shares, ← ids] at hscored'
  exact {
    signature := hsame
    category := by
      rw [hcategory, hcategory']
      exact PatternContent.category_of_signature
        (hcontent.trans (hsame.trans hcontent'.symm))
    confidence := sums.confidence.trans sums'.confidence.symm
    projects := sums.projects.trans sums'.projects.symm
    languages := languages.trans languages'.symm
    consensus := ⟨_, hscored, hscored'⟩
    identical := fun few => by
      rw [consensusScore_eq consistent few ha, consensusScore_eq consistent' (count ▸ few) hb,
        ← hsame, ← exhibitingIds_congr ids shares, ← ids] }

/-- There are aggregations of the same signatures. -/
lemma snapshot_signatures (consistent : one.Consistent) (consistent' : two.Consistent)
    (shares : (one.occurrences.map (·.share)).Perm (two.occurrences.map (·.share))) :
    one.snapshot.map (·.signature) = two.snapshot.map (·.signature) := by
  have hpresent : ∀ portfolio : Portfolio, portfolio.Consistent → ∀ k,
      k ∈ portfolio.aggregations.map (·.signature) ↔
        ∃ share ∈ portfolio.occurrences.map (·.share), share.signature = k := by
    intro portfolio consistent k
    have hagrees := (consistent.agreesOn k).present
    simp only [List.mem_map, exists_exists_and_eq_and]
    exact hagrees
  have hperm : (one.aggregations.map (·.signature)).Perm
      (two.aggregations.map (·.signature)) := by
    rw [List.perm_ext_iff_of_nodup consistent.distinct consistent'.distinct]
    intro k
    simp only [hpresent one consistent, hpresent two consistent', shares.mem_iff]
  have hsorted : ∀ portfolio : Portfolio,
      (portfolio.snapshot.map (·.signature)).Pairwise (· ≤ ·) := by
    intro portfolio
    have htrans : ∀ a b c : AggregationRow, decide (a.signature ≤ b.signature) →
        decide (b.signature ≤ c.signature) → decide (a.signature ≤ c.signature) := by
      simp only [decide_eq_true_eq]
      exact fun a b c => le_trans
    have htotal : ∀ a b : AggregationRow,
        decide (a.signature ≤ b.signature) || decide (b.signature ≤ a.signature) := by
      simpa using fun a b : AggregationRow => le_total a.signature b.signature
    exact List.pairwise_map.mpr
      ((List.pairwise_mergeSort htrans htotal _).imp of_decide_eq_true)
  have hstored : ∀ portfolio : Portfolio, (portfolio.snapshot.map (·.signature)).Perm
      (portfolio.aggregations.map (·.signature)) :=
    fun portfolio => (List.mergeSort_perm _ _).map _
  have hsame := ((hstored one).trans hperm).trans (hstored two).symm
  exact hsame.eq_of_pairwise (fun _ _ _ _ => le_antisymm) (hsorted one) (hsorted two)

/-- Aggregations are determined by the occurrences and the projects that are active. -/
theorem snapshot_alike (consistent : one.Consistent) (consistent' : two.Consistent)
    (count : two.projects.length = one.projects.length) (ids : one.activeIds = two.activeIds)
    (shares : (one.occurrences.map (·.share)).Perm (two.occurrences.map (·.share))) :
    List.Forall₂ (AggregationRow.Alike one.projects.length) one.snapshot two.snapshot := by
  refine forall₂_of_map_eq (snapshot_signatures consistent consistent' shares) ?_
  intro a ha b hb hsame
  exact aggregations_alike consistent consistent' count ids shares (List.mem_mergeSort.mp ha)
    (List.mem_mergeSort.mp hb) hsame

end Portfolio

/-- The patterns of a store, in whatever order their rows are stored. -/
lemma PatternStore.loadPatterns_perm {store other : PatternStore} {patterns others : List Pattern}
    (h : store.patterns.Perm other.patterns) (hpatterns : store.loadPatterns = .ok patterns)
    (hothers : other.loadPatterns = .ok others) : patterns.Perm others := by
  have hread : ∀ (store : PatternStore) patterns, store.loadPatterns = .ok patterns →
      (store.patterns.map Pattern.ofRow).Perm (patterns.map .ok) := by
    intro store patterns hpatterns
    rw [← map_eq_map (mapM_eq_ok.mp hpatterns) fun row p hp => hp]
    exact (List.mergeSort_perm _ _).symm.map _
  have hperm := ((hread store patterns hpatterns).symm.trans (h.map _)).trans
    (hread other others hothers)
  exact (List.map_perm_map_iff fun p q heq => Except.ok.inj heq).mp hperm

namespace Workspace

variable {space last : Workspace} {ids : List String} {count : Nat}

/-! ## Runs -/

lemma transact_portfolio {ε : Type} (space : Workspace) (result : Except ε Portfolio) :
    (space.transact result).portfolio = space.portfolio.transact result := by
  cases result <;> rfl

/-- A call of a workspace is one of its portfolio, or it learns. -/
theorem perform_consistent (consistent : space.portfolio.Consistent) (call : WorkspaceCall) :
    (space.perform call).portfolio.Consistent := by
  have asked : ∀ request : PortfolioRequest, (space.portfolio.perform
      ⟨request, call.attempts, call.now, call.faults, call.honest⟩).Consistent :=
    fun request => consistent.perform _
  unfold Workspace.perform
  cases hrequest : call.request with
  | learn projectId learning => exact consistent.under call.faults
  | link newId path metadata =>
    simp only [transact_portfolio]
    exact asked (.link newId path metadata)
  | unlink projectId =>
    simp only [transact_portfolio]
    exact asked (.unlink projectId)
  | setStats projectId patterns concepts =>
    simp only [transact_portfolio]
    exact asked (.setStats projectId patterns concepts)
  | rebase projectId =>
    simp only [transact_portfolio]
    exact asked (.rebase projectId)
  | sync projectId => exact asked (.sync projectId (space.stores projectId))
  | cutSync projectId versions =>
    exact asked (.cutSync projectId (space.stores projectId) versions)

theorem run_consistent (consistent : space.portfolio.Consistent) (calls : List WorkspaceCall) :
    (space.run calls).portfolio.Consistent := by
  induction calls generalizing space with
  | nil => exact consistent
  | cons call calls ih => exact ih (perform_consistent consistent call)

/-- The calls by which a project learns. -/
def learnedBy (calls : List WorkspaceCall) (id : String) : List LearnerCall :=
  calls.filterMap fun call =>
    match call.request with
    | .learn projectId learning => if id = projectId then some learning else none
    | _ => none

/-- A store is what its project has learned, whatever else was asked. -/
lemma run_stores (space : Workspace) (calls : List WorkspaceCall) (id : String) :
    (space.run calls).stores id = LearnerRun.run id (space.stores id) (learnedBy calls id) := by
  induction calls generalizing space with
  | nil => rfl
  | cons call calls ih =>
    refine (ih (space.perform call)).trans ?_
    have htransact : ∀ {ε : Type} (space : Workspace) (result : Except ε Portfolio),
        (space.transact result).stores = space.stores := by
      intro ε space result
      cases result <;> rfl
    unfold Workspace.perform learnedBy
    cases hrequest : call.request with
    | learn projectId learning =>
      simp only [learn, List.filterMap_cons, hrequest]
      split
      · rfl
      · rfl
    | _ => simp only [htransact, List.filterMap_cons, hrequest]

/-! ## Last syncs -/

/-- Syncs of some projects, one after another, that all go through. -/
inductive Settles : Workspace → List String → Workspace → Prop where
  | done (space : Workspace) : Settles space [] space
  | sync {space last : Workspace} {ids : List String} (projectId : String) (attempts : Nat)
      (now : Int) (faults : Faults) (honest : faults.Honest) (result : SyncResult)
      (through : ((space.portfolio.under faults).sync attempts now projectId
        (space.stores projectId)).result = .ok result)
      (rest : Settles (space.perform ⟨.sync projectId, attempts, now, faults, honest⟩) ids last) :
      Settles space (projectId :: ids) last

lemma Settles.exists_run (settles : Settles space ids last) :
    ∃ calls, calls.length = ids.length ∧ last = space.run calls := by
  induction settles with
  | done space => exact ⟨[], rfl, rfl⟩
  | sync projectId attempts now faults honest _ _ _ ih =>
    obtain ⟨calls, hlength, rfl⟩ := ih
    exact ⟨⟨.sync projectId, attempts, now, faults, honest⟩ :: calls, by simp [hlength], rfl⟩

/-- Syncs leave the stores alone. -/
lemma Settles.stores (settles : Settles space ids last) : last.stores = space.stores := by
  induction settles with
  | done => rfl
  | sync _ _ _ _ _ _ _ _ ih => exact ih

/-- The checkpoint of a project is the version of its store. -/
def CaughtUp (space : Workspace) (id : String) : Prop :=
  space.portfolio.checkpoint? id = some (space.stores id).version

/-- A project that was caught up with has exactly the occurrences of its patterns. -/
lemma CaughtUp.occurrences (sound : Sound count space) {id : String}
    (caughtUp : space.CaughtUp id) :
    ∃ patterns, (space.stores id).loadPatterns = .ok patterns ∧
      ((space.portfolio.occurrences.filter (·.projectId == id)).map (·.share)).Perm
        (patterns.map (·.share id)) :=
  (sound.synced id _ caughtUp).2.2.exact (sound.versioned id).dated

/-- A sync that goes through catches up with the store of its project, and leaves the
checkpoints of the others. -/
lemma Sound.caughtUp (sound : Sound count space) (room : count < Word.half) {projectId : String}
    {attempts : Nat} {now : Int} {faults : Faults} (honest : faults.Honest) {result : SyncResult}
    (h : ((space.portfolio.under faults).sync attempts now projectId
      (space.stores projectId)).result = .ok result) (id : String)
    (before : id = projectId ∨ space.CaughtUp id) :
    (space.perform ⟨.sync projectId, attempts, now, faults, honest⟩).CaughtUp id := by
  obtain ⟨moved, synced⟩ := SoundAmong.sync_ok (sound.under faults) room trivial honest h
  by_cases hid : id = projectId
  · exact hid ▸ synced.own
  · exact (moved.checkpoints id hid).trans (before.resolve_left hid)

lemma Settles.caughtUp (settles : Settles space ids last) (sound : Sound count space)
    (few : count + ids.length < Word.half) :
    ∀ id, id ∈ ids ∨ space.CaughtUp id → last.CaughtUp id := by
  induction settles generalizing count with
  | done => exact fun id h => h.resolve_left List.not_mem_nil
  | sync projectId attempts now faults honest result through _ ih =>
    rw [List.length_cons] at few
    intro id h
    apply ih (sound.perform (by omega) _) (by omega) id
    by_cases hid : id = projectId
    · exact .inr (sound.caughtUp (by omega) honest through id (.inl hid))
    · rcases h with hmem | hbefore
      · exact .inl (List.mem_of_ne_of_mem hid hmem)
      · exact .inr (sound.caughtUp (by omega) honest through id (.inr hbefore))

/-! ## Runs that end with the same stores -/

/-- A run that ends with syncs which all go through, one at least of every project. All projects
are active then. A run has fewer calls than there are signed words. -/
structure Ends (calls : List WorkspaceCall) (ids : List String) (last : Workspace) : Prop where
  settles : Settles (empty.run calls) ids last
  few : calls.length + ids.length < Word.half
  linked : ∀ row ∈ last.portfolio.projects, row.id ∈ ids
  active : ∀ row ∈ last.portfolio.projects, row.isActive = true

variable {calls : List WorkspaceCall}

lemma Ends.sound (ends : Ends calls ids last) : Sound (calls.length + ids.length) last := by
  obtain ⟨more, hlength, rfl⟩ := ends.settles.exists_run
  have few := ends.few
  have sound := sound_empty.run (show 0 + (calls ++ more).length < Word.half by simpa [hlength])
  simpa [Workspace.run, hlength] using sound

lemma Ends.consistent (ends : Ends calls ids last) : last.portfolio.Consistent := by
  obtain ⟨more, -, rfl⟩ := ends.settles.exists_run
  exact run_consistent (run_consistent Portfolio.consistent_empty calls) more

lemma Ends.caughtUp (ends : Ends calls ids last) {id : String}
    (h : id ∈ last.portfolio.projects.map (·.id)) : last.CaughtUp id := by
  obtain ⟨row, hrow, rfl⟩ := List.mem_map.mp h
  have few := ends.few
  have sound := sound_empty.run (show 0 + calls.length < Word.half by omega)
  exact ends.settles.caughtUp sound (by omega) row.id (.inl (ends.linked row hrow))

lemma Ends.activeIds (ends : Ends calls ids last) :
    last.portfolio.activeIds = (last.portfolio.projects.map (·.id)).toFinset := by
  rw [Portfolio.activeIds, List.filter_eq_self.mpr ends.active]

/-- Other projects have no checkpoint and no occurrences. -/
lemma Ends.unknown (ends : Ends calls ids last) {id : String}
    (h : id ∉ last.portfolio.projects.map (·.id)) :
    last.portfolio.checkpoint? id = none ∧
      last.portfolio.occurrences.filter (·.projectId == id) = [] := by
  have hnone : last.portfolio.checkpoint? id = none := by
    refine Option.map_eq_none_iff.mpr ((Table.lookup_eq_none ProjectRow.id).mpr ?_)
    exact fun row hrow heq => h (heq ▸ List.mem_map_of_mem hrow)
  refine ⟨hnone, List.filter_eq_nil_iff.mpr fun row hrow hown => ?_⟩
  have hknown := ends.sound.known row hrow
  rw [beq_iff_eq.mp hown, hnone] at hknown
  cases hknown

/-- Two runs of the same projects that leave stores with the same patterns and versions leave
portfolios that hold the same, whatever was learned, linked, unlinked, rebased and synced before,
in whatever order, and wherever syncs broke off. -/
theorem run_converges {first second : List WorkspaceCall} {ids ids' : List String}
    {one two : Workspace} (ends : Ends first ids one) (ends' : Ends second ids' two)
    (projects : ∀ id, id ∈ one.portfolio.projects.map (·.id) ↔
      id ∈ two.portfolio.projects.map (·.id))
    (patterns : ∀ id ∈ one.portfolio.projects.map (·.id),
      (one.stores id).patterns.Perm (two.stores id).patterns)
    (versions : ∀ id ∈ one.portfolio.projects.map (·.id),
      (one.stores id).version = (two.stores id).version) :
    one.portfolio.Alike two.portfolio := by
  have shares : (one.portfolio.occurrences.map (·.share)).Perm
      (two.portfolio.occurrences.map (·.share)) := by
    refine perm_of_filter_perm Share.projectId fun id => ?_
    rw [List.filter_map, List.filter_map]
    by_cases hid : id ∈ one.portfolio.projects.map (·.id)
    · obtain ⟨ps, hps, hone⟩ := (ends.caughtUp hid).occurrences ends.sound
      obtain ⟨qs, hqs, htwo⟩ := (ends'.caughtUp ((projects id).mp hid)).occurrences ends'.sound
      have hsame := (PatternStore.loadPatterns_perm (patterns id hid) hps hqs).map (·.share id)
      exact (hone.trans hsame).trans htwo.symm
    · have hone := (ends.unknown hid).2
      have htwo := (ends'.unknown fun h => hid ((projects id).mpr h)).2
      exact .of_eq ((congrArg (List.map _) hone).trans (congrArg (List.map _) htwo).symm)
  have active : one.portfolio.activeIds = two.portfolio.activeIds := by
    ext id
    rw [ends.activeIds, ends'.activeIds, List.mem_toFinset, List.mem_toFinset, projects id]
  have count : two.portfolio.projects.length = one.portfolio.projects.length := by
    have hperm := (List.perm_ext_iff_of_nodup ends.consistent.projects
      ends'.consistent.projects).mpr projects
    rw [← List.length_map, ← hperm.length_eq, List.length_map]
  refine ⟨shares, Portfolio.snapshot_alike ends.consistent ends'.consistent count active shares,
    ?_⟩
  intro id
  by_cases hid : id ∈ one.portfolio.projects.map (·.id)
  · rw [ends.caughtUp hid, ends'.caughtUp ((projects id).mp hid), versions id hid]
  · rw [(ends.unknown hid).1, (ends'.unknown fun h => hid ((projects id).mpr h)).1]

/-! A pattern comes in before a sync, or between a sync that has nothing to do yet and another one
whose work is taken back. -/

def sampleEarly : List WorkspaceCall :=
  [.link "a" "/a" .unset, .learn "a" (sampleImport (.quotes .single) 2), .sync "a"].map
    fun request => ⟨request, 3, 0, .none, Faults.honest_none⟩

def sampleLate : List WorkspaceCall :=
  [.link "a" "/a" .unset, .sync "a", .learn "a" (sampleImport (.quotes .single) 2),
    .cutSync "a" 1, .rebase "a"].map fun request => ⟨request, 3, 0, .none, Faults.honest_none⟩

def sampleSync : WorkspaceCall := ⟨.sync "a", 3, 0, .none, Faults.honest_none⟩

/-- What has to be looked at of a run whose only project is synced at last. -/
def sampleOutcome (calls : List WorkspaceCall) : Bool × List (String × Bool) :=
  let space := empty.run calls
  let synced := (space.portfolio.under .none).sync 3 0 "a" (space.stores "a")
  (synced.result.isOk, synced.portfolio.projects.map fun row => (row.id, row.isActive))

lemma sample_ends (calls : List WorkspaceCall) (few : calls.length + 1 < Word.half)
    (h : sampleOutcome calls = (true, [("a", true)])) :
    Ends calls ["a"] ((empty.run calls).perform sampleSync) ∧
      ((empty.run calls).perform sampleSync).portfolio.projects.map (·.id) = ["a"] := by
  obtain ⟨result, through⟩ := exists_ok (Prod.mk.inj h).1
  have hprojects : ((empty.run calls).perform sampleSync).portfolio.projects.map
      (fun row => (row.id, row.isActive)) = [("a", true)] := (Prod.mk.inj h).2
  have hrows : ∀ row ∈ ((empty.run calls).perform sampleSync).portfolio.projects,
      row.id = "a" ∧ row.isActive = true := by
    intro row hrow
    have hmem := List.mem_map_of_mem (f := fun row : ProjectRow => (row.id, row.isActive)) hrow
    rw [hprojects, List.mem_singleton] at hmem
    exact Prod.mk.inj hmem
  refine ⟨⟨.sync "a" 3 0 .none Faults.honest_none result through (.done _), few, ?_, ?_⟩, ?_⟩
  · exact fun row hrow => List.mem_singleton.mpr (hrows row hrow).1
  · exact fun row hrow => (hrows row hrow).2
  · have hids := congrArg (List.map Prod.fst) hprojects
    rwa [List.map_map] at hids

theorem sampleLate_converges :
    ((empty.run sampleEarly).perform sampleSync).portfolio.Alike
      ((empty.run sampleLate).perform sampleSync).portfolio := by
  obtain ⟨ends, hids⟩ := sample_ends sampleEarly (by decide) (by decide +kernel)
  obtain ⟨ends', hids'⟩ := sample_ends sampleLate (by decide) (by decide +kernel)
  have hstores : ∀ id, (empty.run sampleEarly).stores id = (empty.run sampleLate).stores id :=
    fun id => (run_stores empty sampleEarly id).trans (run_stores empty sampleLate id).symm
  refine run_converges ends ends' ?_ ?_ ?_
  · intro id
    rw [hids, hids']
  · exact fun id _ => .of_eq (congrArg PatternStore.patterns (hstores id))
  · exact fun id _ => congrArg PatternStore.version (hstores id)

end Workspace

end HouseStyle
