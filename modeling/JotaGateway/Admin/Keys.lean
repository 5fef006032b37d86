-- SUMMARY: Ids and keys of the client rows are unique, so a lookup finds the row of a key, and refuses a client exactly when no active row has its id and its key.
import JotaGateway.Admin.Clients
import Mathlib.Data.List.Pairwise

/-!
# Keys of the clients

The database allows no two rows with one id or one key. A key that was rotated, or
whose row was deactivated or deleted, is nobody's from then on.
-/

namespace Admin

/-- The columns that the database keeps unique. -/
def ClientRecord.Distinct (rec_ other : ClientRecord) : Prop :=
  rec_.id ≠ other.id ∧ rec_.clientKey ≠ other.clientKey

instance : Std.Symm ClientRecord.Distinct := ⟨fun _ _ h => ⟨h.1.symm, h.2.symm⟩⟩

namespace Database

variable {blank : Nat → Bool} {db : Database} {rec_ other : ClientRecord} {id clientKey : PyStr}

def Unique (db : Database) : Prop := db.Pairwise ClientRecord.Distinct

-- ---------------------------------------------------------------------------
-- Requests
-- ---------------------------------------------------------------------------

theorem Unique.eq_of_key (h : db.Unique) (hrec : rec_ ∈ db) (hother : other ∈ db)
    (hkey : rec_.clientKey = other.clientKey) : rec_ = other := by
  by_contra hne
  exact (List.Pairwise.forall h hrec hother hne).2 hkey

theorem Unique.append (h : db.Unique) (hclashes : db.clashes rec_.id rec_.clientKey = false) :
    Unique (db ++ [rec_]) := by
  refine List.pairwise_append.mpr ⟨h, List.pairwise_singleton _ _, ?_⟩
  intro other hother last hlast
  obtain rfl := List.mem_singleton.mp hlast
  have hfree := List.any_eq_false.mp hclashes other hother
  simp only [Bool.or_eq_true, beq_iff_eq, not_or] at hfree
  exact hfree

/-- The row with its id is replaced by one whose key no other row has. -/
theorem Unique.replace (h : db.Unique)
    (hfree : ∀ other ∈ db, other.id ≠ rec_.id → other.clientKey ≠ rec_.clientKey) :
    (db.replace rec_).Unique := by
  refine List.pairwise_map.mpr (h.imp_of_mem fun {a b} ha hb hdistinct => ?_)
  simp only [beq_iff_eq]
  split
  · rename_i heq
    have hne : b.id ≠ rec_.id := fun hb => hdistinct.1 (heq.trans hb.symm)
    rw [if_neg hne]
    exact ⟨hne.symm, (hfree b hb hne).symm⟩
  · rename_i hne
    split
    · exact ⟨hne, hfree a ha hne⟩
    · exact hdistinct

/-- A row that is found by its id keeps its key. -/
theorem Unique.replace_same (h : db.Unique) (hfind : db.find id = some other)
    (hid : rec_.id = other.id) (hkey : rec_.clientKey = other.clientKey) : (db.replace rec_).Unique := by
  refine h.replace fun third hthird hne heq => hne ?_
  rw [h.eq_of_key hthird (List.mem_of_find?_eq_some hfind) (heq.trans hkey), hid]

theorem find_id (hfind : db.find id = some rec_) : rec_.id = id :=
  beq_iff_eq.mp (List.find?_some (p := fun rec_ : ClientRecord => rec_.id == id) hfind)

theorem Unique.createClient (h : db.Unique) (body : Body) (importedKey : Option PyStr)
    (id token : PyStr) : (db.createClient blank body importedKey id token).1.Unique := by
  unfold Database.createClient
  split
  · exact h
  · dsimp only
    split
    · split
      · exact h
      · rename_i hclashes
        exact h.append (Bool.eq_false_iff.mpr hclashes)
    · exact h

theorem Unique.updateClient (h : db.Unique) (id : PyStr) (body : Body) (isActive : Option Bool) :
    (db.updateClient blank id body isActive).1.Unique := by
  unfold Database.updateClient
  split
  · exact h
  · split
    · exact h
    · rename_i hfind
      dsimp only
      split
      · exact h
      · exact h.replace_same hfind rfl rfl

theorem Unique.deleteClient (h : db.Unique) (id : PyStr) : (db.deleteClient id).1.Unique := by
  unfold Database.deleteClient
  split
  · exact h
  · exact h.sublist List.filter_sublist

theorem Unique.rotateClientKey (h : db.Unique) (id : PyStr) (tokens : List PyStr) :
    (db.rotateClientKey id tokens).1.Unique := by
  unfold Database.rotateClientKey
  split
  · exact h
  · rename_i rec_ hfind
    dsimp only
    split
    · exact h
    · rename_i token htoken
      have hfree := List.find?_some htoken
      rw [Bool.not_eq_true', List.any_eq_false] at hfree
      refine h.replace fun other hother hne heq => hfree other hother ?_
      rw [Bool.and_eq_true, bne_iff_ne, beq_iff_eq]
      exact ⟨find_id hfind ▸ hne, heq⟩

theorem Unique.handle (h : db.Unique) (request : Request) : (db.handle blank request).1.Unique := by
  cases request with
  | create body importedKey id token => exact h.createClient body importedKey id token
  | patch id body isActive => exact h.updateClient id body isActive
  | delete id => exact h.deleteClient id
  | rotateKey id tokens => exact h.rotateClientKey id tokens

-- ---------------------------------------------------------------------------
-- Lookups
-- ---------------------------------------------------------------------------

/-- What a lookup says of a key: its row, if that is active. -/
theorem lookup_cases (h : db.Kept blank) (clientKey : PyStr) :
    (∃ rec_ ∈ db, rec_.clientKey = clientKey ∧ rec_.isActive = true ∧ db.lookup clientKey =
      .ok (rec_, { defaultAgent := rec_.defaultAgent, allowedAgents := rec_.agents blank })) ∨
    (∃ rec_ ∈ db, rec_.clientKey = clientKey ∧ rec_.isActive = false ∧
      db.lookup clientKey = .error .clientInactive) ∨
    (∀ rec_ ∈ db, rec_.clientKey ≠ clientKey) ∧ db.lookup clientKey = .error .clientNotFound := by
  unfold Database.lookup
  split
  · rename_i hnone
    refine .inr (.inr ⟨fun rec_ hrec heq => ?_, rfl⟩)
    exact List.find?_eq_none.mp hnone rec_ hrec (beq_iff_eq.mpr heq)
  · rename_i rec_ hfind
    have hmem := List.mem_of_find?_eq_some hfind
    have hkey : rec_.clientKey = clientKey :=
      beq_iff_eq.mp (List.find?_some (p := fun rec_ : ClientRecord => rec_.clientKey == clientKey) hfind)
    split
    · rename_i hactive
      rw [(h rec_ hmem).parsed]
      exact .inl ⟨rec_, hmem, hkey, hactive, rfl⟩
    · rename_i hinactive
      exact .inr (.inl ⟨rec_, hmem, hkey, Bool.eq_false_iff.mpr hinactive, rfl⟩)

/-- The row of that client, if it is active and has that key still. -/
def Has (db : Database) (id clientKey : PyStr) : Prop :=
  ∃ rec_ ∈ db, rec_.id = id ∧ rec_.clientKey = clientKey ∧ rec_.isActive = true

end Database

theorem resolveAgent_allowed {requested : Option PyStr} {config : ClientConfig}
    {gatewayInfo : Option GatewayInfo} {agent : PyStr} {agents : List PyStr}
    (hagent : resolveAgent requested (some config) gatewayInfo = .ok agent)
    (hallowed : config.allowedAgents = some agents) : agent ∈ agents := by
  simp only [resolveAgent, Option.bind_some, hallowed, Option.any_some] at hagent
  split at hagent
  · cases hagent
  · rename_i hpermitted
    split at hagent
    · cases hagent
    · cases hagent
      rw [Bool.not_eq_true', Bool.not_eq_false, List.contains_iff_mem] at hpermitted
      exact hpermitted

end Admin
