import HouseStyle.Proofs.Portfolio.Aggregates
import HouseStyle.Proofs.Portfolio.Runs

/-!
# Aggregations agree with the occurrences

Linking, unlinking, syncing and rebasing change occurrences or the projects that count. Each of
them brings up to date what depends on its change: a sync and a rebase the signatures whose
occurrences they touch, linking and unlinking every consensus. So whatever is asked of a
portfolio, and wherever syncs break off, its aggregations say what its occurrences come to.
-/

namespace HouseStyle

/-! ## Keys of occurrences -/

def OccurrenceRow.key (row : OccurrenceRow) : String × String × String :=
  (row.signature, row.projectId, row.patternId)

/-- Occurrences by their projects, and those of one project by their patterns. -/
def OccurrenceRow.Before (a b : OccurrenceRow) : Prop :=
  a.projectId < b.projectId ∨ a.projectId = b.projectId ∧ a.patternId < b.patternId

namespace Portfolio

variable {portfolio after : Portfolio} {projectId : String} {attempts : Nat} {now : Int}

lemma sameOccurrence_iff_key {a b : OccurrenceRow} : sameOccurrence a b = true ↔ a.key = b.key := by
  rw [sameOccurrence_iff, OccurrenceRow.key, OccurrenceRow.key, Prod.mk.injEq, Prod.mk.injEq]

/-- Writing an occurrence keeps the keys different. -/
lemma nodup_putOccurrence {rows : List OccurrenceRow} (row : OccurrenceRow)
    (nodup : (rows.map (·.key)).Nodup) : ((putOccurrence rows row).map (·.key)).Nodup := by
  unfold putOccurrence Table.put
  generalize hstored : { row with confidence := Decimal.unsignedZero row.confidence } = stored
  split
  · have hkeys : (rows.map fun old => if sameOccurrence stored old then stored else old).map
        (·.key) = rows.map (·.key) := by
      rw [List.map_map]
      apply List.map_congr_left
      intro old _
      rw [Function.comp_apply]
      split
      · next hsame => exact sameOccurrence_iff_key.mp hsame
      · rfl
    rw [hkeys]
    exact nodup
  · next hnew =>
    refine Table.nodup_concat nodup fun old hold heq => hnew ?_
    exact List.any_eq_true.mpr ⟨old, hold, sameOccurrence_iff_key.mpr heq.symm⟩

lemma nodup_apply {rows : List OccurrenceRow} (change : StoreChange)
    (nodup : (rows.map (·.key)).Nodup) :
    ((change.apply projectId now rows).map (·.key)).Nodup := by
  cases change with
  | retract id => exact nodup.sublist (List.filter_sublist.map _)
  | upsert p => exact nodup_putOccurrence _ nodup

/-! ## What a signature depends on -/

lemma occurrencesFor_perm (portfolio : Portfolio) (signature : String) :
    (portfolio.occurrencesFor signature).Perm
      (portfolio.occurrences.filter (·.signature == signature)) :=
  List.mergeSort_perm _ _

lemma occurrencesFor_eq_nil {signature : String} : portfolio.occurrencesFor signature = [] ↔
    portfolio.occurrences.filter (·.signature == signature) = [] := by
  have hperm := portfolio.occurrencesFor_perm signature
  constructor
  · intro h
    rw [h] at hperm
    exact hperm.nil_eq.symm
  · intro h
    rw [h] at hperm
    exact hperm.eq_nil

lemma occurrencesFor_sorted (portfolio : Portfolio) (signature : String) :
    (portfolio.occurrencesFor signature).Pairwise fun a b =>
      a.projectId < b.projectId ∨ a.projectId = b.projectId ∧ a.patternId ≤ b.patternId := by
  refine (List.pairwise_mergeSort ?_ ?_ _).imp fun h => by simpa using h
  · intro a b c hab hbc
    simp only [Bool.or_eq_true, Bool.and_eq_true, decide_eq_true_eq, beq_iff_eq] at hab hbc ⊢
    rcases hab with hab | ⟨hab, hab'⟩
    · rcases hbc with hbc | ⟨hbc, -⟩
      · exact .inl (lt_trans hab hbc)
      · exact .inl (hbc ▸ hab)
    · rcases hbc with hbc | ⟨hbc, hbc'⟩
      · exact .inl (hab ▸ hbc)
      · exact .inr ⟨hab.trans hbc, le_trans hab' hbc'⟩
  · intro a b
    simp only [Bool.or_eq_true, Bool.and_eq_true, decide_eq_true_eq, beq_iff_eq]
    rcases lt_trichotomy a.projectId b.projectId with hlt | heq | hgt
    · exact .inl (.inl hlt)
    · rcases le_total a.patternId b.patternId with hle | hge
      · exact .inl (.inr ⟨heq, hle⟩)
      · exact .inr (.inr ⟨heq.symm, hge⟩)
    · exact .inr (.inl hgt)

lemma activeCountFor_eq (signature : String) : portfolio.activeCountFor signature =
    portfolio.projects.countP fun project => project.isActive &&
      (portfolio.occurrences.filter (·.signature == signature)).any
        (·.projectId == project.id) := by
  simp only [activeCountFor, List.any_filter]

/-- A signature says the same as long as its occurrences stay. -/
lemma Aggregated.of_occurrences {signature : String} {rows : List OccurrenceRow}
    (aggregated : portfolio.Aggregated signature)
    (hrows : rows.filter (·.signature == signature) =
      portfolio.occurrences.filter (·.signature == signature)) :
    ({ portfolio with occurrences := rows } : Portfolio).Aggregated signature := by
  apply aggregated.congr
  · rfl
  · simp only [occurrencesFor, hrows]
  · simp only [scoreFor, activeCountFor_eq, hrows, countActive]

/-- Only the ids of projects matter, and which are active. -/
lemma scoreFor_withProject {id : String} {change : ProjectRow → ProjectRow}
    (hid : ∀ row, (change row).id = row.id)
    (hactive : ∀ row, (change row).isActive = row.isActive) (signature : String) :
    (portfolio.withProject id change).scoreFor signature = portfolio.scoreFor signature := by
  have hids : ∀ row : ProjectRow, (if row.id == id then change row else row).id = row.id := by
    intro row
    split
    · exact hid row
    · rfl
  have hactives : ∀ row : ProjectRow,
      (if row.id == id then change row else row).isActive = row.isActive := by
    intro row
    split
    · exact hactive row
    · rfl
  simp only [scoreFor, activeCountFor, countActive, withProject, List.countP_map,
    Function.comp_def, hids, hactives]

/-! ## Signatures renewed one after another -/

/-- Every row says what it should, or its signature is still to be renewed. -/
def Pending (portfolio : Portfolio) (renewals : List (String × Option RuleText)) : Prop :=
  ∀ k, portfolio.Aggregated k ∨ k ∈ renewals.map (·.1) ∧
    ∀ r ∈ renewals, r.1 = k → r.2 = none → portfolio.occurrencesFor k ≠ [] →
      (portfolio.getAggregation? k).isSome = true

/-- What is known of a signature that is renewed without being told anything. -/
lemma Pending.known {signature : String} {text : Option RuleText}
    {rest : List (String × Option RuleText)}
    (pending : portfolio.Pending ((signature, text) :: rest)) (nothingTold : text = none)
    (something : portfolio.occurrencesFor signature ≠ []) :
    (portfolio.getAggregation? signature).isSome = true := by
  rcases pending signature with aggregated | ⟨-, known⟩
  · exact aggregated.present.mpr something
  · exact known _ List.mem_cons_self rfl nothingTold something

theorem RenewedAll.aggregated {renewals : List (String × Option RuleText)}
    (renewed : RenewedAll now renewals portfolio after) (distinct : portfolio.Distinct)
    (pending : portfolio.Pending renewals) : after.Distinct ∧ ∀ k, after.Aggregated k := by
  induction renewed with
  | nil portfolio =>
    refine ⟨distinct, fun k => ?_⟩
    rcases pending k with aggregated | ⟨hnone, -⟩
    · exact aggregated
    · cases hnone
  | @cons signature text rest portfolio mid after first others ih =>
    have apart := first.apart distinct
    apply ih apart.distinct
    intro k
    by_cases hk : k = signature
    · subst hk
      exact .inl (first.aggregated distinct pending.known)
    · have hrow := apart.others k hk
      have hrows := apart.refreshed.occurrencesFor k
      rcases pending k with aggregated | ⟨hmem, known⟩
      · exact .inl (aggregated.congr hrow hrows (apart.refreshed.scoreFor k))
      · refine .inr ⟨?_, ?_⟩
        · rw [List.map_cons, List.mem_cons] at hmem
          exact hmem.resolve_left hk
        · intro r hr
          rw [hrow, hrows]
          exact known r (List.mem_cons_of_mem _ hr)

/-! ## Consistency -/

/-- The aggregations of all signatures say what they should. -/
structure Consistent (portfolio : Portfolio) : Prop where
  distinct : portfolio.Distinct
  projects : (portfolio.projects.map (·.id)).Nodup
  occurrences : (portfolio.occurrences.map (·.key)).Nodup
  proper : portfolio.Proper
  aggregated : ∀ k, portfolio.Aggregated k

lemma consistent_empty : Portfolio.empty.Consistent where
  distinct := List.nodup_nil
  projects := List.nodup_nil
  occurrences := List.nodup_nil
  proper := by simp [Proper, empty]
  aggregated := fun _ => .of_none rfl (occurrencesFor_eq_nil.mpr rfl)

namespace Consistent

/-- Occurrences may change as long as the signatures that this covers are renewed. -/
theorem renewed (consistent : portfolio.Consistent) {rows : List OccurrenceRow}
    {renewals : List (String × Option RuleText)} (keys : (rows.map (·.key)).Nodup)
    (covers : Covers renewals portfolio.occurrences rows) (named : Named renewals)
    (h : RenewedAll now renewals { portfolio with occurrences := rows } after) :
    after.Consistent := by
  have pending : ({ portfolio with occurrences := rows } : Portfolio).Pending renewals := by
    intro k
    by_cases hk : k ∈ renewals.map (·.1)
    · refine .inr ⟨hk, ?_⟩
      rintro r hr rfl nothingTold something
      apply (consistent.aggregated r.1).present.mpr
      intro hnone
      apply something
      apply occurrencesFor_eq_nil.mpr
      by_contra hleft
      exact covers.known r hr nothingTold hleft (occurrencesFor_eq_nil.mp hnone)
    · exact .inl ((consistent.aggregated k).of_occurrences (covers.others k hk))
  obtain ⟨distinct, aggregated⟩ := h.aggregated consistent.distinct pending
  have proper := h.proper named consistent.proper
  obtain ⟨_, rfl⟩ := h.refreshed
  exact ⟨distinct, consistent.projects, keys, proper, aggregated⟩

/-- The row of a project may change as long as the project counts as before. -/
lemma withProject (consistent : portfolio.Consistent) {id : String}
    {change : ProjectRow → ProjectRow} (hid : ∀ row, (change row).id = row.id)
    (hactive : ∀ row, (change row).isActive = row.isActive) :
    (portfolio.withProject id change).Consistent where
  distinct := consistent.distinct
  projects := by
    rw [ids_withProject hid]
    exact consistent.projects
  occurrences := consistent.occurrences
  proper := consistent.proper.grown (by simp)
  aggregated := fun k =>
    (consistent.aggregated k).congr rfl rfl (scoreFor_withProject hid hactive k)

/-- Projects may change as long as every consensus is brought up to date. -/
theorem recomputed (consistent : portfolio.Consistent) {projects : List ProjectRow}
    {changed : Nat} (ids : (projects.map (·.id)).Nodup)
    (grown : portfolio.projects.length ≤ projects.length)
    (h : ({ portfolio with projects } : Portfolio).recompute attempts now =
      .ok (after, changed)) : after.Consistent := by
  have distinct : ({ portfolio with projects } : Portfolio).Distinct := consistent.distinct
  obtain ⟨refreshed, distinct', hproper, aggregated⟩ := recompute_aggregated distinct h
  have proper := hproper (consistent.proper.grown grown)
  have told : ∀ k, ({ portfolio with projects } : Portfolio).Told k :=
    fun k => (consistent.aggregated k).toTold.congr rfl rfl
  obtain ⟨_, rfl⟩ := refreshed
  exact ⟨distinct', ids, consistent.occurrences, proper, fun k => aggregated k (told k)⟩

lemma recomputed_withProject (consistent : portfolio.Consistent) {id : String}
    {change : ProjectRow → ProjectRow} {changed : Nat} (hid : ∀ row, (change row).id = row.id)
    (h : (portfolio.withProject id change).recompute attempts now = .ok (after, changed)) :
    after.Consistent := by
  have ids : ((portfolio.withProject id change).projects.map (·.id)).Nodup := by
    rw [ids_withProject hid]
    exact consistent.projects
  exact consistent.recomputed ids (by simp [Portfolio.withProject]) h

/-! ## Requests -/

/-- The faults of the database do not matter. -/
lemma under (consistent : portfolio.Consistent) (faults : Faults) :
    (portfolio.under faults).Consistent :=
  ⟨consistent.distinct, consistent.projects, consistent.occurrences, consistent.proper,
    fun k => (consistent.aggregated k).congr rfl rfl rfl⟩

lemma link {newId path : String} {metadata : ProjectMetadata} {row : ProjectRow} {known : Bool}
    (consistent : portfolio.Consistent) (honest : portfolio.faults.Honest)
    (h : portfolio.link attempts now newId path metadata = .ok (after, row, known)) :
    after.Consistent := by
  obtain ⟨mid, id, changed, hregister, hrecompute⟩ := link_cases h
  rcases register_cases hregister honest with ⟨own, name, language, frameworks, rfl⟩ |
    ⟨row, hnew, -, rfl⟩
  · exact consistent.recomputed_withProject (by exact fun _ => rfl) hrecompute
  · exact consistent.recomputed (Table.nodup_concat consistent.projects hnew) (by simp) hrecompute

lemma unlink {changed : Bool} (consistent : portfolio.Consistent)
    (honest : portfolio.faults.Honest)
    (h : portfolio.unlink attempts now projectId = .ok (after, changed)) : after.Consistent := by
  rcases unlink_cases h honest with rfl | ⟨count, hrecompute⟩
  · exact consistent
  · exact consistent.recomputed_withProject (by exact fun _ => rfl) hrecompute

lemma setStats {patterns concepts : Nat} (consistent : portfolio.Consistent)
    (honest : portfolio.faults.Honest)
    (h : portfolio.setStats projectId patterns concepts = .ok after) : after.Consistent := by
  obtain ⟨_, _, rfl⟩ := setStats_cases h honest
  exact consistent.withProject (fun _ => rfl) (fun _ => rfl)

lemma rebase {count : Nat} (consistent : portfolio.Consistent)
    (honest : portfolio.faults.Honest)
    (h : portfolio.rebase attempts now projectId = .ok (after, count)) : after.Consistent := by
  obtain ⟨-, renewals, mid, covers, named, renewed, rfl⟩ := rebase_renewed h honest
  have keys : ((portfolio.occurrences.filter fun row =>
      !(row.projectId == projectId)).map (·.key)).Nodup :=
    consistent.occurrences.sublist (List.filter_sublist.map _)
  exact (consistent.renewed keys covers named renewed).withProject (fun _ => rfl) (fun _ => rfl)

lemma applyChanges {changes : List StoreChange} {counts counts' : SyncCounts}
    (consistent : portfolio.Consistent) (proper : ∀ change ∈ changes, change.Proper)
    (honest : portfolio.faults.Honest)
    (h : changes.foldlM (fun (progress : Portfolio × SyncCounts) change => do
      let (portfolio, more) ← progress.1.applyChange projectId attempts now change
      return (portfolio, progress.2.add more)) (portfolio, counts) = .ok (after, counts')) :
    after.Consistent := by
  induction changes generalizing portfolio counts with
  | nil =>
    obtain ⟨rfl, -⟩ := Prod.mk.inj (pure_eq_ok.mp h)
    exact consistent
  | cons change changes ih =>
    rw [List.foldlM_cons] at h
    obtain ⟨_, hfirst, hrest⟩ := bind_eq_ok.mp h
    obtain ⟨⟨mid, more⟩, hchange, hmid⟩ := bind_eq_ok.mp hfirst
    obtain rfl := pure_eq_ok.mp hmid
    obtain ⟨hfirst, hothers⟩ := List.forall_mem_cons.mp proper
    obtain ⟨renewals, covers, named, renewed⟩ := applyChange_renewed hchange honest
    have consistent' := consistent.renewed (nodup_apply change consistent.occurrences) covers
      (named hfirst) renewed
    obtain ⟨_, rfl⟩ := applyChange_ok hchange honest
    exact ih consistent' hothers honest hrest

lemma applyVersion {group : VersionChanges} {counts : SyncCounts}
    (consistent : portfolio.Consistent) (proper : ∀ change ∈ group.changes, change.Proper)
    (honest : portfolio.faults.Honest)
    (h : portfolio.applyVersion projectId attempts now group = .ok (after, counts)) :
    after.Consistent := by
  obtain ⟨⟨mid, counts'⟩, hchanges, h⟩ := bind_eq_ok.mp h
  obtain ⟨left, hadvance, h⟩ := bind_eq_ok.mp h
  obtain ⟨rfl, -⟩ := Prod.mk.inj (pure_eq_ok.mp h)
  have consistent' := consistent.applyChanges proper honest hchanges
  obtain ⟨_, rfl⟩ := applyChanges_ok hchanges honest
  obtain rfl := advanceCheckpoint_ok hadvance honest
  exact consistent'.withProject (advanced_id _ now) (advanced_isActive _ now)

/-- Versions are applied as a whole or not at all. -/
theorem applyVersions {progress left : SyncProgress} {error : Option StorageError}
    {groups : List VersionChanges} (consistent : progress.portfolio.Consistent)
    (proper : ∀ group ∈ groups, ∀ change ∈ group.changes, change.Proper)
    (honest : progress.portfolio.faults.Honest)
    (h : Portfolio.applyVersions projectId attempts now progress groups = (left, error)) :
    left.portfolio.Consistent ∧ left.portfolio.faults = progress.portfolio.faults := by
  induction groups generalizing progress with
  | nil =>
    obtain ⟨rfl, -⟩ := Prod.mk.inj h
    exact ⟨consistent, rfl⟩
  | cons group groups ih =>
    rw [Portfolio.applyVersions] at h
    cases hfirst : progress.portfolio.applyVersion projectId attempts now group with
    | error error =>
      rw [hfirst] at h
      obtain ⟨rfl, -⟩ := Prod.mk.inj h
      exact ⟨consistent, rfl⟩
    | ok result =>
      obtain ⟨mid, counts⟩ := result
      rw [hfirst] at h
      obtain ⟨hgroup, hothers⟩ := List.forall_mem_cons.mp proper
      have consistent' := consistent.applyVersion hgroup honest hfirst
      obtain ⟨_, rfl⟩ := applyVersion_ok hfirst honest
      obtain ⟨consistent'', hfaults⟩ := ih (by exact consistent') hothers (by exact honest) h
      exact ⟨consistent'', hfaults⟩

theorem sync (consistent : portfolio.Consistent) (honest : portfolio.faults.Honest)
    (projectId : String) (attempts : Nat) (now : Int) (store : PatternStore) :
    (portfolio.sync attempts now projectId store).portfolio.Consistent := by
  rcases portfolio.sync_cases attempts now projectId store with ⟨hsame, -⟩ |
    ⟨project, groups, progress, failure, -, hgroups, -, happly, hcases⟩
  · rw [hsame]
    exact consistent
  · have hprogress : progress.portfolio.Consistent ∧
        progress.portfolio.faults = portfolio.faults :=
      consistent.applyVersions (PatternStore.changesSince_proper hgroups) honest happly
    rcases hcases with ⟨hleft, -⟩ | ⟨-, left, hclose, hleft, -⟩
    · rw [hleft]
      exact hprogress.1
    · rw [hleft, closeSync_ok hclose (hprogress.2 ▸ honest)]
      exact (hprogress.1.withProject (advanced_id _ now) (advanced_isActive _ now)).withProject
        (fun _ => rfl) (fun _ => rfl)

/-- A sync may also be cut off after any version. -/
theorem syncCut (consistent : portfolio.Consistent) (honest : portfolio.faults.Honest)
    (projectId : String) (attempts : Nat) (now : Int) (store : PatternStore) (versions : Nat) :
    (portfolio.syncCut attempts now projectId store versions).Consistent := by
  unfold Portfolio.syncCut
  split
  · exact consistent
  · simp only
    split
    · exact consistent
    · next groups hgroups =>
      split
      · exact consistent
      · generalize happly : Portfolio.applyVersions _ attempts now _ _ = outcome
        obtain ⟨left, error⟩ := outcome
        have proper := PatternStore.changesSince_proper hgroups
        exact (consistent.applyVersions
          (fun group hgroup => proper group (List.mem_of_mem_take hgroup)) honest happly).1

end Consistent

/-! ## What the tables say of a signature -/

/-- The projects that count. -/
def activeIds (portfolio : Portfolio) : Finset String :=
  ((portfolio.projects.filter (·.isActive)).map (·.id)).toFinset

/-- The active projects with an occurrence of a signature. -/
def exhibitingIds (portfolio : Portfolio) (signature : String) : Finset String :=
  portfolio.activeIds.filter fun id =>
    ∃ o ∈ portfolio.occurrences, o.signature = signature ∧ o.projectId = id

/-- The aggregations agree with the occurrences of a signature. There is one row for it if there
are occurrences, and none otherwise. The row sums up the occurrences in the order of projects and
patterns, and its consensus is that of the active projects. -/
structure AgreesOn (portfolio : Portfolio) (signature : String) : Prop where
  single : (portfolio.aggregations.filter (·.signature == signature)).length ≤ 1
  present : (∃ row ∈ portfolio.aggregations, row.signature = signature) ↔
    ∃ o ∈ portfolio.occurrences, o.signature = signature
  sums : ∀ row ∈ portfolio.aggregations, row.signature = signature →
    ∃ (rows : List OccurrenceRow) (occurrences : List Occurrence),
      rows.Perm (portfolio.occurrences.filter (·.signature == signature)) ∧
      rows.Pairwise OccurrenceRow.Before ∧ rows.mapM Occurrence.ofRow = .ok occurrences ∧
      row.Sums occurrences
  scored : ∀ row ∈ portfolio.aggregations, row.signature = signature →
    sameConsensus (consensus (portfolio.exhibitingIds signature).card portfolio.activeIds.card)
      row.consensusScore = true

/-- Counting rows with different ids counts the ids. -/
lemma countP_eq_card {rows : List ProjectRow} (nodup : (rows.map (·.id)).Nodup)
    (fits : ProjectRow → Bool) :
    rows.countP fits = ((rows.filter fits).map (·.id)).toFinset.card := by
  have hfits : ((rows.filter fits).map (·.id)).Nodup := Table.nodup_filter ProjectRow.id _ _ nodup
  rw [List.toFinset_card_of_nodup hfits, List.length_map, List.countP_eq_length_filter]

namespace Consistent

variable {signature : String}

lemma exhibitingIds_card (consistent : portfolio.Consistent) (signature : String) :
    (portfolio.exhibitingIds signature).card = portfolio.activeCountFor signature := by
  rw [activeCountFor, countP_eq_card consistent.projects]
  congr 1
  ext id
  simp only [exhibitingIds, activeIds, Finset.mem_filter, List.mem_toFinset, List.mem_map,
    List.mem_filter, Bool.and_eq_true, List.any_eq_true, beq_iff_eq]
  constructor
  · rintro ⟨⟨project, ⟨hproject, hactive⟩, rfl⟩, o, ho, hown⟩
    exact ⟨project, ⟨hproject, hactive, o, ho, hown⟩, rfl⟩
  · rintro ⟨project, ⟨hproject, hactive, o, ho, hown⟩, rfl⟩
    exact ⟨⟨project, ⟨hproject, hactive⟩, rfl⟩, o, ho, hown⟩

/-- No two occurrences of a signature are of one pattern of one project, so their order leaves
nothing open. -/
lemma occurrencesFor_ordered (consistent : portfolio.Consistent) (signature : String) :
    (portfolio.occurrencesFor signature).Pairwise OccurrenceRow.Before := by
  have hperm := portfolio.occurrencesFor_perm signature
  have hown : ∀ row ∈ portfolio.occurrencesFor signature, row.signature = signature := by
    intro row hrow
    exact beq_iff_eq.mp (List.mem_filter.mp (hperm.mem_iff.mp hrow)).2
  have hkeys : ((portfolio.occurrencesFor signature).map (·.key)).Nodup := by
    rw [(hperm.map _).nodup_iff]
    exact consistent.occurrences.sublist (List.filter_sublist.map _)
  rw [List.Nodup, List.pairwise_map] at hkeys
  refine ((portfolio.occurrencesFor_sorted signature).and hkeys).imp_of_mem ?_
  rintro a b ha hb ⟨hle, hne⟩
  rcases hle with hlt | ⟨hproject, hpattern⟩
  · exact .inl hlt
  · refine .inr ⟨hproject, lt_of_le_of_ne hpattern fun heq => hne ?_⟩
    rw [OccurrenceRow.key, OccurrenceRow.key, hown a ha, hown b hb, hproject, heq]

theorem agreesOn (consistent : portfolio.Consistent) (signature : String) :
    portfolio.AgreesOn signature := by
  have aggregated := consistent.aggregated signature
  have hfound : ∀ row ∈ portfolio.aggregations, row.signature = signature →
      portfolio.getAggregation? signature = some row := by
    rintro row hrow rfl
    exact Table.lookup_of_mem AggregationRow.signature consistent.distinct hrow
  refine ⟨?_, ?_, ?_, ?_⟩
  · rw [Table.filter_key AggregationRow.signature consistent.distinct]
    exact Option.length_toList_le
  · constructor
    · rintro ⟨row, hrow, hown⟩
      have hsome : portfolio.occurrencesFor signature ≠ [] :=
        aggregated.present.mp (Option.isSome_iff_exists.mpr ⟨row, hfound row hrow hown⟩)
      obtain ⟨o, ho⟩ := List.exists_mem_of_ne_nil _ hsome
      obtain ⟨hmem, hfits⟩ :=
        List.mem_filter.mp ((portfolio.occurrencesFor_perm signature).mem_iff.mp ho)
      exact ⟨o, hmem, beq_iff_eq.mp hfits⟩
    · rintro ⟨o, ho, hown⟩
      have hsome : portfolio.occurrencesFor signature ≠ [] := by
        intro hnone
        have hmem : o ∈ portfolio.occurrences.filter (·.signature == signature) :=
          List.mem_filter.mpr ⟨ho, beq_iff_eq.mpr hown⟩
        rw [occurrencesFor_eq_nil.mp hnone] at hmem
        cases hmem
      obtain ⟨row, hrow⟩ := Option.isSome_iff_exists.mp (aggregated.present.mpr hsome)
      exact ⟨row, Table.mem_of_lookup AggregationRow.signature hrow⟩
  · intro row hrow hown
    obtain ⟨occurrences, read, sums, -⟩ := aggregated.sums row (hfound row hrow hown)
    exact ⟨portfolio.occurrencesFor signature, occurrences, List.mergeSort_perm _ _,
      consistent.occurrencesFor_ordered signature, read, sums⟩
  · intro row hrow hown
    rw [consistent.exhibitingIds_card, activeIds, ← countP_eq_card consistent.projects]
    exact aggregated.scored row (hfound row hrow hown)

end Consistent

end Portfolio

/-! ## Requests one after another -/

/-- What can be asked of a portfolio. A sync meets the store of its project as it is then, whatever
it holds. -/
inductive PortfolioRequest where
  | link (newId path : String) (metadata : ProjectMetadata)
  | unlink (projectId : String)
  | setStats (projectId : String) (patterns concepts : Nat)
  | rebase (projectId : String)
  | sync (projectId : String) (store : PatternStore)
  /-- A sync that a failure of the database cuts off after some versions. -/
  | cutSync (projectId : String) (store : PatternStore) (versions : Nat)

/-- A request with the time it is made at, the attempts it has at every aggregation, and the
faults that the database has then. -/
structure PortfolioCall where
  request : PortfolioRequest
  attempts : Nat
  now : Int
  faults : Faults
  honest : faults.Honest

namespace Portfolio

variable {portfolio : Portfolio}

/-- A transaction. One that fails leaves everything as it was. -/
def transact {ε : Type} (portfolio : Portfolio) (result : Except ε Portfolio) : Portfolio :=
  match result with
  | .ok after => after
  | .error _ => portfolio

/-- The portfolio after a call. -/
def perform (portfolio : Portfolio) (call : PortfolioCall) : Portfolio :=
  let portfolio := portfolio.under call.faults
  match call.request with
  | .link newId path metadata =>
    portfolio.transact ((portfolio.link call.attempts call.now newId path metadata).map (·.1))
  | .unlink projectId =>
    portfolio.transact ((portfolio.unlink call.attempts call.now projectId).map (·.1))
  | .setStats projectId patterns concepts =>
    portfolio.transact (portfolio.setStats projectId patterns concepts)
  | .rebase projectId =>
    portfolio.transact ((portfolio.rebase call.attempts call.now projectId).map (·.1))
  | .sync projectId store =>
    (portfolio.sync call.attempts call.now projectId store).portfolio
  | .cutSync projectId store versions =>
    portfolio.syncCut call.attempts call.now projectId store versions

/-- Calls one after another. -/
def run (portfolio : Portfolio) (calls : List PortfolioCall) : Portfolio :=
  calls.foldl perform portfolio

/-- A transaction keeps what holds of the portfolios it can lead to. -/
lemma Consistent.transact {ε : Type} {result : Except ε Portfolio}
    (consistent : portfolio.Consistent)
    (h : ∀ after, result = .ok after → after.Consistent) :
    (portfolio.transact result).Consistent := by
  cases result with
  | error error => exact consistent
  | ok after => exact h after rfl

theorem Consistent.perform (consistent : portfolio.Consistent) (call : PortfolioCall) :
    (portfolio.perform call).Consistent := by
  have consistent' := consistent.under call.faults
  unfold Portfolio.perform
  cases hrequest : call.request with
  | link newId path metadata =>
    refine consistent'.transact fun after h => ?_
    obtain ⟨_, hlink⟩ := map_fst_eq_ok h
    exact consistent'.link call.honest hlink
  | unlink projectId =>
    refine consistent'.transact fun after h => ?_
    obtain ⟨_, hunlink⟩ := map_fst_eq_ok h
    exact consistent'.unlink call.honest hunlink
  | setStats projectId patterns concepts =>
    exact consistent'.transact fun after h => consistent'.setStats call.honest h
  | rebase projectId =>
    refine consistent'.transact fun after h => ?_
    obtain ⟨_, hrebase⟩ := map_fst_eq_ok h
    exact consistent'.rebase call.honest hrebase
  | sync projectId store =>
    exact consistent'.sync call.honest projectId call.attempts call.now store
  | cutSync projectId store versions =>
    exact consistent'.syncCut call.honest projectId call.attempts call.now store versions

theorem Consistent.run (consistent : portfolio.Consistent) (calls : List PortfolioCall) :
    (portfolio.run calls).Consistent := by
  induction calls generalizing portfolio with
  | nil => exact consistent
  | cons call calls ih => exact ih (consistent.perform call)

/-- Whatever is asked of a portfolio, its aggregations agree with its occurrences. -/
theorem run_agrees (calls : List PortfolioCall) (signature : String) :
    (empty.run calls).AgreesOn signature :=
  (consistent_empty.run calls).agreesOn signature

end Portfolio

end HouseStyle
