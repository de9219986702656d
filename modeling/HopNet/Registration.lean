import HopNet.Membership
import HopNet.Lib.Table
import HopNet.Users

namespace HopNet

open Fallible List Table UserRow App Transaction

structure NewUser where
  username : String
  pubkey : PubKey
  x25519Pubkey : FixedBytes 32
  encryptedPrivkey : Bytes
  keySalt : Bytes

structure InsertUserPayload where
  user : NewUser
  meshGrant : MeshKeyGrant

/-- For each field `none` is no change and `some none` clears it. -/
structure UpdateUserProfilePayload where
  userId : Int
  firstName : Option (Option String)
  lastName : Option (Option String)
  avatar : Option (Option Bytes)

structure UpdateUserOnboardingPayload where
  userId : Int
  setFlags : BitVec 32
  clearFlags : BitVec 32

/-- The user handlers' tables; `other` is what the projections write. -/
structure IdentityTables (O : Type) where
  /-- The `users` row of `sequences`. -/
  userSeq : Option Nat
  users : List UserRow
  meshKey : Option (FixedBytes 32)
  meshKeyAccess : List MeshKeyGrant
  other : O

structure UserDecoders where
  decodeUser : Bytes → Option InsertUserPayload
  decodeProfile : Bytes → Option UpdateUserProfilePayload
  decodeOnboarding : Bytes → Option UpdateUserOnboardingPayload
  /-- A genesis payload's user, mesh key and grant. -/
  decodeFounder : Bytes → Option (NewUser × FixedBytes 32 × MeshKeyGrant)

variable {O : Type} {D : UserDecoders} {base : App (IdentityTables O)}

/-- Under the primary key and the unique name; the keys have no constraint. -/
def insertUserTx (user : NewUser) (t : IdentityTables O) : DbResult (IdentityTables O) :=
  match t.userSeq with
  | none => .error .recallError
  | some nextId => do
      require (∀ row ∈ t.users, row.userId ≠ nextId ∧ row.username ≠ user.username) .insertError
      return { t with
        users := t.users ++ [⟨nextId, user.username, user.pubkey, user.x25519Pubkey,
          user.encryptedPrivkey, user.keySalt, none, none, none, 0⟩]
        userSeq := some (nextId + 1) }

def insertMeshGrantTx (grant : MeshKeyGrant) (t : IdentityTables O) : IdentityTables O :=
  { t with meshKeyAccess := insertOrReplace MeshKeyGrant.recipientPubkey grant t.meshKeyAccess }

def insertUser (D : UserDecoders) (tx : TxMeta) (t : IdentityTables O) :
    DbResult (IdentityTables O) := do
  let payload ← orInvalid (D.decodeUser tx.payload)
  require (payload.meshGrant.recipientPubkey = payload.user.x25519Pubkey) .invalidPayload
  let t ← insertUserTx payload.user t
  return insertMeshGrantTx payload.meshGrant t

def updateUserProfile (D : UserDecoders) (tx : TxMeta) (t : IdentityTables O) :
    DbResult (IdentityTables O) := do
  let payload ← orInvalid (D.decodeProfile tx.payload)
  require (tx.userId = some payload.userId) .authorizationError
  require (UserExists t.users payload.userId) .notFound
  require (∀ name ∈ payload.firstName.join, name.utf8ByteSize ≤ 32) .invalidPayload
  require (∀ name ∈ payload.lastName.join, name.utf8ByteSize ≤ 32) .invalidPayload
  require (∀ bytes ∈ payload.avatar.join, bytes.length ≤ 128000) .invalidPayload
  return { t with users := modify UserRow.userId payload.userId (fun row => { row with
    firstName := payload.firstName.getD row.firstName
    lastName := payload.lastName.getD row.lastName
    avatar := payload.avatar.getD row.avatar }) t.users }

def updateUserOnboarding (D : UserDecoders) (tx : TxMeta) (t : IdentityTables O) :
    DbResult (IdentityTables O) := do
  let payload ← orInvalid (D.decodeOnboarding tx.payload)
  require (tx.userId = some payload.userId) .authorizationError
  require (UserExists t.users payload.userId) .notFound
  return { t with users := modify UserRow.userId payload.userId (fun row => { row with
    onboardingFlags :=
      (row.onboardingFlags ||| payload.setFlags) &&& ~~~ payload.clearFlags }) t.users }

/-- With its user handlers: those of `base` may read these tables, and write theirs. -/
def identityApp (base : App (IdentityTables O)) (D : UserDecoders) : App (IdentityTables O) :=
  { base with
    installUser := fun payload t => do
      let (user, _) ← orInvalid (D.decodeFounder payload)
      require (t.userSeq = none) .insertError
      insertUserTx user { t with userSeq := some 0 }
    installMesh := fun payload t => do
      let (_, meshKey, grant) ← orInvalid (D.decodeFounder payload)
      require (t.meshKey = none) .insertError
      let t := insertMeshGrantTx grant { t with meshKey := some meshKey }
      let seeded ← base.installMesh payload t
      return { t with other := seeded.other }
    userKey := fun t userId => (lookup UserRow.userId userId t.users).map pubkey
    others := fun name =>
      if name = "insert_user" then some fun _ tx _ _ t => insertUser D tx t
      else if name = "update_user_profile" then some fun _ tx _ _ t => updateUserProfile D tx t
      else if name = "update_user_onboarding" then some fun _ tx _ _ t => updateUserOnboarding
      D tx t else (base.others name).map fun handler readings tx height view t => do
        let written ← handler readings tx height view t
        return { t with other := written.other } }

/-- One row more, under a new key, and the rows that were there. -/
def AddsRow {α κ : Type} (key : α → κ) (rows rows' : List α) : Prop :=
  ∃ row, (∀ old ∈ rows, key old ≠ key row) ∧ rows' ~ row :: rows

structure KeysDistinct (db : Db (IdentityTables O)) : Prop where
  signing : (db.rest.users.map pubkey).Nodup
  x25519 : (db.rest.users.map x25519Pubkey).Nodup
  nodes : (db.nodes.map NodeRow.pubkey).Nodup

/-- What a registration is to leave behind. -/
def TakesNothing (tx : Transaction) (db db' : Db (IdentityTables O)) : Prop :=
  KeysDistinct db' ∧
    if tx.rpc.function = "insert_user" then
      AddsRow UserRow.userId db.rest.users db'.rest.users ∧
        AddsRow MeshKeyGrant.recipientPubkey db.rest.meshKeyAccess db'.rest.meshKeyAccess ∧
        db'.nodes = db.nodes
    else
      db'.rest.users = db.rest.users ∧ db'.rest.meshKeyAccess = db.rest.meshKeyAccess ∧
        AddsRow NodeRow.nodeId db.nodes db'.nodes

/-- A new user's keys are nobody's yet, and no grant was made to them. -/
def FreshKeys (D : UserDecoders) (tx : Transaction) (t : IdentityTables O) : Prop :=
  tx.rpc.function = "insert_user" → ∀ payload, D.decodeUser tx.rpc.payload = some payload →
    (∀ row ∈ t.users, row.pubkey ≠ payload.user.pubkey ∧
      row.x25519Pubkey ≠ payload.user.x25519Pubkey) ∧
      ∀ grant ∈ t.meshKeyAccess, grant.recipientPubkey ≠ payload.user.x25519Pubkey

/-- A transaction of a block, or what ends blocks and epochs, which leaves these tables alone. -/
inductive RegistryLabel where
  | transaction (tx : Transaction) (height : Nat)
  | elsewhere

def RegistryStep (base : App (IdentityTables O)) (D : UserDecoders) (db : Db (IdentityTables O)) :
    RegistryLabel → Db (IdentityTables O) → Prop
  | .transaction tx height, db' =>
    FreshKeys D tx db.rest ∧ processTransaction (identityApp base D) tx true height db = .ok db'
  | .elsewhere, db' => db'.nodes = db.nodes ∧ db'.rest = { db.rest with other := db'.rest.other }

def unprovisioned (other : O) : Db (IdentityTables O) :=
  ⟨[], [], none, none, none, [], none, none, none, ⟨none, [], none, [], other⟩⟩

variable {t t' : IdentityTables O} {tx : Transaction} {height : Nat}
  {db db' : Db (IdentityTables O)} {payload : Bytes} {user : NewUser} {meta_ : TxMeta}

lemma insertUserTx_ok (ran : insertUserTx user t = .ok t') :
    t'.userSeq.isSome ∧ t'.meshKeyAccess = t.meshKeyAccess ∧ ∃ row,
      (∀ old ∈ t.users, old.userId ≠ row.userId) ∧ t'.users = t.users ++ [row] ∧
        row.pubkey = user.pubkey ∧ row.x25519Pubkey = user.x25519Pubkey := by
  unfold insertUserTx at ran
  cases hs : t.userSeq with
  | none => simp [hs] at ran
  | some nextId =>
    simp only [hs, require_bind, pure_eq_ok] at ran
    obtain ⟨hu, rfl⟩ := ran
    exact ⟨rfl, rfl, _, fun old ho => (hu old ho).1, rfl, rfl, rfl⟩

lemma insertUser_ok (ran : insertUser D meta_ t = .ok t') :
    ∃ payload added, D.decodeUser meta_.payload = some payload ∧
      payload.meshGrant.recipientPubkey = payload.user.x25519Pubkey ∧
      insertUserTx payload.user t = .ok added ∧ t' = insertMeshGrantTx payload.meshGrant added := by
  simp only [insertUser, bind_eq_ok, orInvalid_eq_ok, exists_require, pure_eq_ok] at ran
  obtain ⟨payload, hd, hr, added, hi, rfl⟩ := ran
  exact ⟨payload, added, hd, hr, hi, rfl⟩

/-- Distinct keys, and no user before the sequence exists. -/
structure RegistryInv (db : Db (IdentityTables O)) : Prop extends KeysDistinct db where
  unseeded : db.rest.userSeq = none → db.rest.users = []

/-- What a handler that registers nobody does to the tables. -/
structure SameKeys (db db' : Db (IdentityTables O)) : Prop where
  nodes : db'.nodes.map NodeRow.pubkey = db.nodes.map NodeRow.pubkey
  signing : db'.rest.users.map pubkey = db.rest.users.map pubkey
  x25519 : db'.rest.users.map x25519Pubkey = db.rest.users.map x25519Pubkey
  userSeq : db'.rest.userSeq = db.rest.userSeq

lemma RegistryInv.keeps (inv : RegistryInv db) (same : SameKeys db db') : RegistryInv db' where
  signing := same.signing ▸ inv.signing
  x25519 := same.x25519 ▸ inv.x25519
  nodes := same.nodes ▸ inv.nodes
  unseeded hs := by
    have he := inv.unseeded (same.userSeq ▸ hs)
    simpa [he] using same.signing

lemma activateValidator_tables {nodeId} (ran : activateValidator db nodeId height = .ok db') :
    db'.nodes = db.nodes ∧ db'.rest = db.rest := by
  unfold activateValidator at ran
  split at ran
  · split at ran
    · cases ran
    · cases ran
      exact ⟨rfl, rfl⟩
  · obtain ⟨_, rfl⟩ := insertRow_ok.1 ran
    exact ⟨rfl, rfl⟩

lemma RegistryInv.of_tables (inv : RegistryInv db) (hn : db'.nodes = db.nodes)
    (hr : db'.rest = db.rest) : RegistryInv db' := by
  apply inv.keeps
  constructor <;> simp only [hn, hr]

/-- An update that leaves the key columns. -/
lemma RegistryInv.modifyUsers (inv : RegistryInv db) {userId} {change : UserRow → UserRow}
    (hp : ∀ row, (change row).pubkey = row.pubkey)
    (hx : ∀ row, (change row).x25519Pubkey = row.x25519Pubkey) : RegistryInv { db with rest :=
      { db.rest with users := modify UserRow.userId userId change db.rest.users } } := by
  refine inv.keeps ⟨rfl, ?_, ?_, rfl⟩
  all_goals
    apply map_key_map
    intro row _
    split_ifs
  · exact hp row
  · rfl
  · exact hx row
  · rfl

lemma insertGenesis_keeps (inv : RegistryInv db)
    (ran : insertGenesis (identityApp base D) meta_ db = .ok db') : RegistryInv db' := by
  simp only [insertGenesis, identityApp, bind_eq_ok, orInvalid_eq_ok, exists_require, pure_eq_ok,
    Prod.exists] at ran
  obtain ⟨node, _, _, installed, ⟨user, _, _, _, hq, hi⟩, nodeId, withNode, hin, seated,
    ha, granted, ⟨_, _, grant, _, _, seeded, _, rfl⟩, rfl⟩ := ran
  obtain ⟨hs, _, row, _, hu, _, _⟩ := insertUserTx_ok hi
  obtain ⟨nextId, _, hf, _, he⟩ := insertNodeTx_ok.1 hin
  obtain ⟨hn, hr⟩ := activateValidator_tables ha
  have hx : installed.users = [row] := by simpa [inv.unseeded hq] using hu
  cases he
  have hd : RegistryInv { seated with rest := installed } := by
    refine ⟨⟨by simp [hx], by simp [hx], ?_⟩, fun hq' => by rw [hq'] at hs; cases hs⟩
    simp only [hn, nodup_map_append_singleton]
    exact ⟨inv.nodes, fun n hm => (hf n hm).2⟩
  refine hd.keeps ⟨rfl, ?_, ?_, ?_⟩
  all_goals simp only [insertMeshGrantTx, hr]

lemma insertUser_keeps (inv : RegistryInv db) (hi : insertUser D meta_ db.rest = .ok t)
    (fresh : ∀ payload, D.decodeUser meta_.payload = some payload → ∀ row ∈ db.rest.users,
      row.pubkey ≠ payload.user.pubkey ∧ row.x25519Pubkey ≠ payload.user.x25519Pubkey) :
    RegistryInv { db with rest := t } := by
  obtain ⟨payload, added, hd, _, ha, rfl⟩ := insertUser_ok hi
  obtain ⟨hs, _, row, _, hu, hp, hx⟩ := insertUserTx_ok ha
  have hf := fresh payload hd
  refine ⟨⟨?_, ?_, inv.nodes⟩, fun hq => ?_⟩
  · simp only [insertMeshGrantTx, hu, nodup_map_append_singleton, hp]
    exact ⟨inv.signing, fun old ho => (hf old ho).1⟩
  · simp only [insertMeshGrantTx, hu, nodup_map_append_singleton, hx]
    exact ⟨inv.x25519, fun old ho => (hf old ho).2⟩
  · simp only [insertMeshGrantTx] at hq
    simp [hq] at hs

/-- One transaction of a block, whichever handler gets it. -/
lemma processTransaction_keeps (inv : RegistryInv db) (fresh : FreshKeys D tx db.rest)
    (ran : processTransaction (identityApp base D) tx true height db = .ok db') :
    RegistryInv db' := by
  unfold processTransaction at ran
  generalize tx.function = function at ran
  cases function with
  | insertGenesis =>
    exact insertGenesis_keeps inv ran
  | insertNode =>
    obtain ⟨node, nextId, _, _, _, hf, _, rfl⟩ := insertNode_ok.1 ran
    refine ⟨⟨inv.signing, inv.x25519, ?_⟩, inv.unseeded⟩
    exact nodup_map_append_singleton.2 ⟨inv.nodes, fun n hm => (hf n hm).2⟩
  | nodeStagedVersion =>
    obtain ⟨f, hs, rfl⟩ := nodeStagedVersion_ok ran
    refine inv.keeps ⟨?_, rfl, rfl, rfl⟩
    rw [map_map]
    exact map_congr_left fun n _ => congrArg ValidatorEntry.pubkey (hs n)
  | validatorActivation =>
    obtain ⟨members, _, _, hm⟩ := validatorActivation_exec.1 ran
    refine foldlM_invariant RegistryInv members ?_ inv hm
    intro m _ s s' hs hr
    obtain ⟨hn, hre⟩ := activateValidator_tables hr
    exact hs.of_tables hn hre
  | validatorLeave =>
    obtain ⟨_, rfl⟩ := insertRow_ok.1 (validatorLeave_exec.1 ran).2
    exact inv.of_tables rfl rfl
  | validatorVoteOut =>
    obtain ⟨_, _, _, hw⟩ := validatorVoteOut_exec.1 ran
    obtain ⟨_, rfl⟩ := insertRow_ok.1 hw
    exact inv.of_tables rfl rfl
  | regenesisStart =>
    obtain ⟨_, _, _, rfl⟩ := regenesisStart_ok.1 ran
    exact inv.of_tables rfl rfl
  | regenesisAbort =>
    obtain ⟨_, _, _, rfl⟩ := regenesisAbort_ok.1 ran
    exact inv.of_tables rfl rfl
  | regenesisCommit =>
    obtain ⟨_, _, _, _, _, _, rfl⟩ := regenesisCommit_exec.1 ran
    exact inv.of_tables rfl rfl
  | cleanupNonces =>
    obtain ⟨_, _, rfl⟩ := cleanupNonces_ok.1 ran
    exact inv.of_tables rfl rfl
  | other name =>
    obtain ⟨handler, rest, ho, hh, rfl⟩ := otherHandler_ok.1 ran
    simp only [identityApp] at ho
    split_ifs at ho with hu hp hb
    · cases ho
      exact insertUser_keeps inv hh fun payload hd => (fresh hu payload hd).1
    · cases ho
      simp only [updateUserProfile, bind_eq_ok, exists_require, pure_eq_ok] at hh
      obtain ⟨_, _, _, _, _, _, _, rfl⟩ := hh
      exact inv.modifyUsers (fun _ => rfl) fun _ => rfl
    · cases ho
      simp only [updateUserOnboarding, bind_eq_ok, exists_require, pure_eq_ok] at hh
      obtain ⟨_, _, _, _, rfl⟩ := hh
      exact inv.modifyUsers (fun _ => rfl) fun _ => rfl
    · obtain ⟨_, _, rfl⟩ := Option.map_eq_some_iff.1 ho
      simp only [bind_eq_ok, pure_eq_ok] at hh
      obtain ⟨_, _, rfl⟩ := hh
      exact inv.keeps ⟨rfl, rfl, rfl, rfl⟩

lemma registryInv_of_reaches {past other}
    (run : Runs.Reaches (RegistryStep base D) (unprovisioned other) past db) : RegistryInv db := by
  have hs : RegistryInv (unprovisioned other) := ⟨⟨nodup_nil, nodup_nil, nodup_nil⟩, fun _ => rfl⟩
  refine run.invariant_state RegistryInv hs ?_
  intro s l s' inv hs
  cases l with
  | transaction tx height => exact processTransaction_keeps inv hs.1 hs.2
  | elsewhere =>
    refine inv.keeps ⟨?_, ?_, ?_, ?_⟩
    · rw [hs.1]
    all_goals rw [hs.2]

lemma addsRow_insertOrReplace_iff {α κ : Type} [DecidableEq κ] {key : α → κ} {rows row} :
    AddsRow key rows (insertOrReplace key row rows) ↔ ∀ old ∈ rows, key old ≠ key row := by
  constructor
  · rintro ⟨_, _, hp⟩
    have hl := hp.length_eq
    rw [insertOrReplace, length_append, length_singleton, length_cons, Nat.add_right_cancel_iff,
      length_filter_eq_length_iff] at hl
    exact fun old ho => of_decide_eq_true (hl old ho)
  · intro hf
    have hall : rows.filter (fun old => key old ≠ key row) = rows :=
      filter_eq_self.2 fun old ho => decide_eq_true (hf old ho)
    rw [insertOrReplace, hall]
    exact ⟨row, hf, perm_append_singleton row rows⟩

/-- Registering a user takes nothing from a member exactly when its keys are new to the tables. -/
theorem registration_takes_nothing_iff (base : App (IdentityTables O)) (D : UserDecoders)
    {other : O} {past : List RegistryLabel}
    (run : Runs.Reaches (RegistryStep base D) (unprovisioned other) past db)
    (execute : Bool) (height : Nat)
    (registers : tx.rpc.function = "insert_user" ∨ tx.rpc.function = "insert_node")
    (ran : processTransaction (identityApp base D) tx execute height db = .ok db') :
    TakesNothing tx db db' ↔ FreshKeys D tx db.rest := by
  have inv := registryInv_of_reaches run
  rcases registers with hu | hn
  · simp only [processTransaction, function, hu, TxFunction.ofName, String.reduceEq,
      if_false] at ran
    obtain ⟨handler, rest, ho, hh, rfl⟩ := otherHandler_ok.1 ran
    simp only [identityApp, txMeta, hu, if_true] at ho
    cases ho
    obtain ⟨payload, added, hd, hg, ha, rfl⟩ := insertUser_ok hh
    obtain ⟨_, hm, row, hid, hrows, hp, hx⟩ := insertUserTx_ok ha
    have fresh : FreshKeys D tx db.rest ↔ (∀ old ∈ db.rest.users, old.pubkey ≠ row.pubkey ∧
        old.x25519Pubkey ≠ row.x25519Pubkey) ∧
        ∀ grant ∈ db.rest.meshKeyAccess,
        grant.recipientPubkey ≠ payload.meshGrant.recipientPubkey := by
      have hd' : D.decodeUser tx.rpc.payload = some payload := hd
      simp only [FreshKeys, hu, hd', forall_const, Option.some.injEq, forall_eq', hp, hx, hg]
    simp only [fresh, TakesNothing, hu, if_true, insertMeshGrantTx, hm, addsRow_insertOrReplace_iff,
      and_true]
    constructor
    · rintro ⟨hk, _, hf⟩
      have hs := hk.signing
      have hx' := hk.x25519
      simp only [hrows, nodup_map_append_singleton] at hs hx'
      exact ⟨fun old ho => ⟨hs.2 old ho, hx'.2 old ho⟩, hf⟩
    · rintro ⟨hk, hf⟩
      refine ⟨⟨?_, ?_, inv.nodes⟩, ⟨row, hid, ?_⟩, hf⟩
      · simpa only [hrows, nodup_map_append_singleton]
          using ⟨inv.signing, fun old ho => (hk old ho).1⟩
      · simpa only [hrows, nodup_map_append_singleton]
          using ⟨inv.x25519, fun old ho => (hk old ho).2⟩
      · rw [hrows]
        exact perm_append_singleton row db.rest.users
  · have hfn : tx.function = .insertNode := by simp [function, hn, TxFunction.ofName]
    simp only [processTransaction, hfn] at ran
    obtain ⟨node, nextId, _, _, _, hf, _, rfl⟩ := insertNode_ok.1 ran
    refine iff_of_true ⟨⟨inv.signing, inv.x25519, ?_⟩, ?_⟩ fun hu => absurd (hn.symm.trans hu)
      (by decide)
    · exact nodup_map_append_singleton.2 ⟨inv.nodes, fun n hm => (hf n hm).2⟩
    · rw [if_neg (by rw [hn]; decide)]
      exact ⟨rfl, rfl, _, fun n hm => (hf n hm).1, perm_append_singleton _ _⟩

/-- A payload: the name, the byte of both keys and the byte of the grant. -/
def NewUser.ofBytes : Bytes → Option (NewUser × MeshKeyGrant)
  | [name, key, wrapped] =>
    some (⟨toString name, .replicate 32 key, .replicate 32 key, [], []⟩,
      ⟨.replicate 32 key, .replicate 32 0, [wrapped]⟩)
  | _ => none

def UserDecoders.sample : UserDecoders where
  decodeUser payload := (NewUser.ofBytes payload).map fun (user, grant) => ⟨user, grant⟩
  decodeProfile _ := none
  decodeOnboarding _ := none
  decodeFounder payload := (NewUser.ofBytes payload).map fun (user, grant) =>
    (user, .replicate 32 7, grant)

def App.identitySample : App (IdentityTables Unit) :=
  { sampleWith fun _ => none with userKey := fun _ _ => none }

/-- The mesh as its founder, with the key `5…5`, leaves it. -/
def founded : Db (IdentityTables Unit) :=
  { unprovisioned () with
    validators := [⟨0, 0, true, none⟩]
    nodes := [⟨0, "node", 0, .replicate 32 1, none, none, none⟩]
    nodeSeq := some 1
    rest := ⟨some 1,
      [⟨0, toString (1 : UInt8), .replicate 32 5, .replicate 32 5, [], [], none, none, none, 0⟩],
      some (.replicate 32 7), [⟨.replicate 32 5, .replicate 32 0, [3]⟩], ()⟩ }

lemma founded_reached : Runs.Reaches (RegistryStep .identitySample .sample) (unprovisioned ())
    [.transaction (sampleTx "insert_genesis" [1, 5, 3] false 1) 0] founded :=
  .snoc .refl ⟨fun hu => absurd hu (by decide), rfl⟩

theorem registration_takes_nothing_iff_second :
    ∃ db', TakesNothing (sampleTx "insert_user" [2, 6, 4] true 2) founded db' := by
  refine ⟨_, (registration_takes_nothing_iff .identitySample .sample founded_reached true 1
    (.inl rfl) rfl).2 ?_⟩
  rintro _ payload ⟨rfl⟩
  decide

/-- A second user with the founder's key is accepted, and the founder's grant is gone. -/
theorem registration_replaces_grant :
    ∃ db', processTransaction (identityApp .identitySample .sample)
      (sampleTx "insert_user" [2, 5, 4] true 2) true 1 founded = .ok db' ∧
    founded.rest.meshKeyAccess.map (·.wrappedPrivkey) = [[3]] ∧
    db'.rest.meshKeyAccess.map (·.wrappedPrivkey) = [[4]] ∧
    ¬ TakesNothing (sampleTx "insert_user" [2, 5, 4] true 2) founded db' := by
  refine ⟨_, rfl, by decide, by decide, ?_⟩
  intro ht
  exact absurd ht.1.x25519 (by decide)

end HopNet
