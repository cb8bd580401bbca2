import Memcove.Drift.Outcomes

/-!
# Forgetting an object

`drop_object` from any state of the two stores, both of them reachable. The metadata goes only
after the table: where the table is gone already, what the registry still has stays.
-/

namespace Memcove

open Programs KeyedTables

/-- The registry holds nothing about an object. -/
structure NoMetadata (R : Registry) (k : Key) : Prop where
  row : R.row k = none
  tags : R.tagsFor k = []
  parents : R.getParents k = []

/-- What a forget of an object from the stores `s` leaves behind and reports. -/
structure Forgotten {α : Type} (s u : Stores) (k : Key) (r : Except PyError α) : Prop where
  table : u.lakehouse.table k = none
  noMetadata : NoMetadata u.registry k
  unlisted : ∀ tags, ∀ found ∈ u.registry.listObjects k.1 tags, found.1.label ≠ k.2
  notFound : ∀ e, r = .error e → e.cls = .objectNotFoundError →
    s.lakehouse.table k = none ∧ NoMetadata s.registry k

/-- An object without metadata is not listed. -/
theorem NoMetadata.unlisted {R : Registry} {k : Key} (h : NoMetadata R k) (tags : List String) :
    ∀ found ∈ R.listObjects k.1 tags, found.1.label ≠ k.2 :=
  fun _ hfound => Registry.not_mem_listObjects h.row hfound

/-- After `delete_object` the registry holds nothing about the object. -/
theorem noMetadata_deleteObject (R : Registry) (k : Key) : NoMetadata (R.deleteObject k) k where
  row := Registry.row_deleteObject_self
  tags := Registry.tagsFor_deleteObject_self
  parents := Registry.getParents_eq_nil.mpr Registry.lineage_deleteObject_self

section

variable [Python] [Engines] [Backend]

/-- Whatever state earlier failures left, every complete forget finishes the job if and only if the
table still exists or the registry holds nothing about the object. -/
theorem dropObject_forgets_iff {tenant label name : String}
    (hlabel : validateLabel label = .ok name) (s : Stores) :
    (∀ r u, Completes (serial {}) s (dropObject tenant label) r u →
        Forgotten s u (tenant, name) r) ↔
      ((s.lakehouse.table (tenant, name)).isSome = true ∨
        NoMetadata s.registry (tenant, name)) := by
  constructor
  · intro h
    have hrun := Program.execute_completes (M := serial {}) (s := s)
      (p := dropObject tenant label)
      (serialAnswer_possible (fun hdown => absurd hdown Bool.false_ne_true))
    have hforgotten := h _ _ hrun
    have hend := (dropObject_ends hlabel).completes hrun
    split at hend
    · rename_i hsome
      exact Or.inl hsome
    · obtain ⟨hr, _⟩ := hend
      exact Or.inr (hforgotten.notFound _ hr rfl).2
  · intro h r u hrun
    have hend := (dropObject_ends hlabel).completes hrun
    split at hend
    · obtain ⟨rfl, rfl⟩ := hend
      have hgone := noMetadata_deleteObject s.registry (tenant, name)
      refine ⟨table_dropTable_self _ _, hgone, hgone.unlisted, ?_⟩
      rintro _ ⟨⟩
    · rename_i hnone
      obtain ⟨rfl, rfl⟩ := hend
      have htable : u.lakehouse.table (tenant, name) = none := by simpa using hnone
      have hgone : NoMetadata u.registry (tenant, name) := h.resolve_left hnone
      exact ⟨htable, hgone, hgone.unlisted, fun _ _ _ => ⟨htable, hgone⟩⟩

end

/-- The row of `events`. -/
def eventsRow : ObjectRow where
  tenant := "t_acme"
  label := "events"
  tableIdent := "iceberg.t_acme.events"
  source := .inline

/-- The object `events`, with its table and its row. -/
def wholeEvents : Stores where
  lakehouse := { tables := [(("t_acme", "events"), ⟨0, [("v", .string true)], []⟩)] }
  registry := { objects := [eventsRow] }

/-- The object after its table was dropped. -/
def halfForgotten : Stores where
  registry := { objects := [eventsRow] }

section

attribute [local instance] asciiPython textEngines externalBackend

/-- The answers of the stores, except that the registry deletes nothing. -/
def answerWithoutDelete (s : Stores) : (c : Call) → Except PyError (Answer c)
  | .deleteObject _ => .error (externalError "registry unreachable")
  | c => answerOf s c

/-- A forget fails between the two stores, and no retry finishes it. -/
theorem halfForgotten_stuck :
    Completes machine wholeEvents (dropObject "t_acme" "events")
        (.error (externalError "registry unreachable")) halfForgotten ∧
      ∃ r u, Completes (serial {}) halfForgotten (dropObject "t_acme" "events") r u ∧
        r = .error (objectNotFound "events") ∧
        u.registry.row ("t_acme", "events") = some eventsRow ∧
        ¬ Forgotten halfForgotten u ("t_acme", "events") r := by
  constructor
  · have hpossible (s : Stores) (c : Call) :
        machine.possible s ⟨c, answerWithoutDelete s c⟩ := by
      cases c with
      | deleteObject k => trivial
      | _ => exact answerOf_possible s _
    have hrun := Program.execute_completes (M := machine) (s := wholeEvents)
      (p := dropObject "t_acme" "events") hpossible
    exact hrun
  · have hrun := Program.execute_completes (M := serial {}) (s := halfForgotten)
      (p := dropObject "t_acme" "events")
      (serialAnswer_possible (fun hdown => absurd hdown Bool.false_ne_true))
    refine ⟨_, _, hrun, by rfl, by rfl, fun hforgotten => ?_⟩
    cases hforgotten.noMetadata.row

/-- Before the failure the forget finishes the job. -/
theorem wholeEvents_forgotten : ∃ r u,
    Completes (serial {}) wholeEvents (dropObject "t_acme" "events") r u ∧
      Forgotten wholeEvents u ("t_acme", "events") r := by
  have hrun := Program.execute_completes (M := serial {}) (s := wholeEvents)
    (p := dropObject "t_acme" "events")
    (serialAnswer_possible (fun hdown => absurd hdown Bool.false_ne_true))
  have hlabel : validateLabel "events" = .ok "events" := by rfl
  exact ⟨_, _, hrun, (dropObject_forgets_iff hlabel wholeEvents).mpr (Or.inl rfl) _ _ hrun⟩

end

end Memcove
