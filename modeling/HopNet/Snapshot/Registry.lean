import HopNet.Snapshot.Importing

namespace HopNet

open Sqlite

open Column (plain required counted keyed numbered part)

def toUsers (column : String) : ForeignKey := ⟨column, "users", "user_id"⟩

def toNodes (column : String) : ForeignKey := ⟨column, "nodes", "node_id"⟩

def toBlocks (column : String) : ForeignKey := ⟨column, "data_blocks", "id"⟩

def identityTables : List TableSchema :=
  [⟨"sequences", [keyed "name", required "next_id"], [], [], []⟩,
    ⟨"users",
      [numbered "user_id", required "username", required "pubkey", required "x25519_pubkey",
        required "encrypted_privkey", required "key_salt", plain "first_name", plain "last_name",
        plain "avatar", counted "onboarding_flags" 0],
      [⟨["username"], none⟩], [], []⟩,
    ⟨"nodes",
      [numbered "node_id", required "name", required "owner", required "pubkey",
        plain "running_version_code", plain "staged_version_code", plain "version_attested_height"],
      [⟨["pubkey"], none⟩], [], [toUsers "owner"]⟩,
    ⟨"device_tokens",
      [keyed "id", required "user_id", required "api_key_hash", required "encrypted_device_name",
        required "wrapped_user_key"],
      [], [], [toUsers "user_id"]⟩]

def telemetryTables : List TableSchema :=
  [⟨"metrics",
      [part "from_node", part "to_node", part "start_time", plain "rtt_latency",
        plain "rtt_variance",
        plain "rtt_jitter", plain "throughput", required "height", counted "available" 1,
        plain "storage_total_gb", plain "storage_used_gb"],
      [], [], [toNodes "from_node", toNodes "to_node"]⟩,
    ⟨"fragment_request_metrics",
      [part "reporting_node", part "from_node", part "to_node", part "consensus_height",
        required "requests_sent", required "requests_succeeded"],
      [], [],
      [toNodes "reporting_node", toNodes "from_node",
        toNodes "to_node"]⟩]

/-- An activation has no departure kind, and a departure has one. -/
def departureKinds : Cond :=
  .or (.and (.among "is_active" [1]) (.isNull "departure_kind"))
    (.and (.among "is_active" [0]) (.and (.not (.isNull "departure_kind"))
      (.isIn "departure_kind" [.text (nameBytes "voluntary"), .text (nameBytes "voted_out")])))

def consensusTables : List TableSchema :=
  [⟨"validators",
      [part "effective_height", part "node_id", required "is_active", plain "departure_kind"],
      [], [departureKinds], []⟩,
    ⟨"hopnet_consensus_policy", [keyed "key", required "value"], [], [], []⟩,
    ⟨"committed_tx_nonces", [keyed "nonce"], [], [], []⟩,
    ⟨"decided_blocks",
      [numbered "height", required "block_hash", required "round", required "block"],
      [⟨["block_hash"], none⟩], [], []⟩,
    ⟨"regenesis_state",
      [numbered "internal_id", required "phase", required "target_version_code",
        plain "snapshot_hash", plain "seal_height"],
      [], [.among "internal_id" [1]], []⟩]

def storageTables : List TableSchema :=
  [⟨"data_blocks",
      [keyed "id", plain "modified_at", required "file_hash", required "fragment_count",
        required "added_bytes", plain "placement_height", required "file_size",
        counted "desired_placement_height" 0],
      [], [], []⟩,
    ⟨"storage_view_transitions", [numbered "height", required "snapshot"], [], [], []⟩,
    ⟨"blob_access",
      [part "blob_id", part "recipient_pubkey", required "ephemeral_pubkey",
      required "wrapped_key"], [], [], [toBlocks "blob_id"]⟩,
    ⟨"mesh_key", [numbered "internal_id", required "pubkey", counted "key_version" 1],
      [], [.among "internal_id" [1]], []⟩,
    ⟨"mesh_key_access",
      [keyed "recipient_pubkey", required "ephemeral_pubkey", required "wrapped_privkey"],
      [], [], []⟩,
    ⟨"fragment_hashes",
      [part "data_block_id", part "chunk_number", part "local_index", required "fragment_id",
        required "fragment_hash", required "chunk_type",
        ⟨"stored_locally", false, false, false, .integer 0⟩],
      [], [.among "chunk_type" [0, 1]], [toBlocks "data_block_id"]⟩,
    ⟨"fragment_inventory",
      [part "fragment_hash", part "node_id", plain "self_verified_height", plain "verified_height",
        plain "provenance", counted "suspect" 0],
      [], [], [toNodes "node_id"]⟩,
    ⟨"hopnet_storage_policy", [keyed "key", required "value"], [], [], []⟩]

def driveSchemaTables : List TableSchema :=
  [⟨"inodes", [required "id", part "owner_id", part "path", required "type", plain "data_id"],
      [⟨["id"], none⟩], [.among "type" [0, 1]],
      [toUsers "owner_id", toBlocks "data_id"]⟩,
    ⟨"incoming_shares",
      [keyed "id", required "data_block_id", required "sender_id", required "recipient_id",
        required "file_access", required "display_ephemeral_pubkey",
        required "encrypted_display_name"],
      [], [],
      [toBlocks "data_block_id", toUsers "sender_id",
        toUsers "recipient_id"]⟩,
    ⟨"shares", [part "data_block_id", part "user_id"], [], [],
      [toBlocks "data_block_id", toUsers "user_id"]⟩]

def toLibrary : ForeignKey := ⟨"library_id", "shared_libraries", "id"⟩

def toPhoto : ForeignKey := ⟨"photo_id", "photos", "id"⟩

def fingerprinted : Cond := .not (.isNull "cloud_fingerprint")

def photosSchemaTables : List TableSchema :=
  [⟨"shared_libraries", [keyed "id", required "encrypted_name", required "name_nonce"], [], [], []⟩,
    ⟨"shared_library_members", [part "library_id", part "user_id"], [], [],
    [toLibrary, toUsers "user_id"]⟩, ⟨"shared_library_keys",
      [part "library_id", part "user_id", required "ephemeral_pubkey", required "wrapped_key"],
      [], [], [toLibrary, toUsers "user_id"]⟩,
    ⟨"shared_library_invites",
      [part "library_id", part "user_id", required "invited_by", required "operation_id",
        required "ephemeral_pubkey", required "wrapped_key"],
      [], [], [toLibrary, toUsers "user_id", toUsers "invited_by"]⟩,
    ⟨"photos",
      [keyed "id", plain "library_id", required "uploaded_by", required "encrypted_metadata",
        required "metadata_nonce", plain "deleted_at", plain "deleted_by",
        plain "cloud_fingerprint"],
      [⟨["cloud_fingerprint"], some (.and (.isNull "library_id") fingerprinted)⟩,
        ⟨["library_id", "cloud_fingerprint"],
          some (.and (.not (.isNull "library_id")) fingerprinted)⟩],
      [],
      [toUsers "uploaded_by", toUsers "deleted_by", toLibrary]⟩,
    ⟨"photo_metadata_access",
      [part "photo_id", part "user_id", required "ephemeral_pubkey",
      required "encrypted_metadata_key"], [], [], [toPhoto, toUsers "user_id"]⟩,
    ⟨"photo_resources", [part "photo_id", part "resource_type", required "data_block_id"],
      [], [], [toPhoto, toBlocks "data_block_id"]⟩,
    ⟨"photo_operations",
      [keyed "id", plain "library_id", required "photo_id", required "operation_type",
        plain "resource_type", plain "prior_data_block_id", plain "new_data_block_id",
        plain "operation_data", required "performed_by"],
      [], [], [toPhoto, toUsers "performed_by"]⟩,
    ⟨"photo_changes", [keyed "photo_id", required "changed_at_height"], [], [], []⟩,
    ⟨"photo_view_changes", [part "user_id", part "library_id", required "changed_at_height"],
      [], [], [toUsers "user_id", toLibrary]⟩,
    ⟨"photo_albums",
      [keyed "id", plain "library_id", required "encrypted_name", required "name_ephemeral_pubkey",
        required "created_by"],
      [], [], [toLibrary, toUsers "created_by"]⟩,
    ⟨"photo_album_entries", [part "album_id", part "photo_id", plain "sort_order"],
      [], [], [⟨"album_id", "photo_albums", "id"⟩, toPhoto]⟩,
    ⟨"photo_favorites", [part "photo_id", part "user_id"], [], [], [toPhoto, toUsers "user_id"]⟩,
    ⟨"photo_ingress_responsibility",
      [part "user_id", keyed "library_id", required "device_id", required "operation_id"],
      [⟨["user_id"], some (.isNull "library_id")⟩], [],
      [toUsers "user_id", ⟨"device_id", "device_tokens", "id"⟩, toLibrary]⟩]

def takeoutTables : List TableSchema :=
  [⟨"takeouts",
      [keyed "id", required "user_id", required "owner_node_id", counted "status" 0,
        required "expires_at", required "consensus_height"],
      [], [.among "status" [0, 1, 2, 3, 4]], [toUsers "user_id"]⟩,
    ⟨"imports", [keyed "id", required "user_id", required "owner_node_id", counted "status" 0],
      [], [.among "status" [0, 1, 2, 3]], [toUsers "user_id"]⟩]

/-- The covered tables at the head of every chain. -/
def headSchema : Schema :=
  identityTables ++ telemetryTables ++ consensusTables ++ storageTables ++ driveSchemaTables ++
    photosSchemaTables ++ takeoutTables

def identitySection : SectionSpec :=
  ⟨"identity", 1, ["sequences", "users", "nodes", "device_tokens"].map .exported⟩

def telemetrySection : SectionSpec :=
  ⟨"telemetry", 0, ["metrics", "fragment_request_metrics"].map .exported⟩

def consensusSection : SectionSpec :=
  ⟨"consensus", 2,
    ["validators", "hopnet_consensus_policy", "committed_tx_nonces"].map .exported ++
      [⟨"decided_blocks", .divergenceOnly, []⟩, ⟨"regenesis_state", .divergenceOnly, []⟩]⟩

def storageSection : SectionSpec :=
  ⟨"storage", 7,
    ["data_blocks", "storage_view_transitions", "blob_access", "mesh_key", "mesh_key_access"].map
      .exported ++ [⟨"fragment_hashes", .exported, ["stored_locally"]⟩,
        ⟨"fragment_inventory", .exported, ["self_verified_height"]⟩,
        .exported "hopnet_storage_policy"]⟩

def driveSection : SectionSpec :=
  ⟨"drive", 1, ["inodes", "incoming_shares", "shares"].map .exported⟩

def photosSection : SectionSpec :=
  ⟨"photos", 1,
    ["shared_libraries", "shared_library_members", "shared_library_keys", "shared_library_invites",
      "photos", "photo_metadata_access", "photo_resources", "photo_operations", "photo_albums",
      "photo_album_entries", "photo_favorites", "photo_changes", "photo_view_changes",
      "photo_ingress_responsibility"].map .exported⟩

def takeoutSection : SectionSpec := ⟨"takeout", 1, ["takeouts", "imports"].map .exported⟩

def snapshotSections : List SectionSpec :=
  [identitySection, telemetrySection, consensusSection, storageSection, driveSection, photosSection,
    takeoutSection]

instance (schema : Schema) (earlier : List TableSpec) (table : TableSpec) :
    Decidable (ParentsIn schema earlier table) :=
  inferInstanceAs
    (Decidable (∀ t ∈ schema.table? table.name, ∀ fk ∈ t.foreignKeys, ∃ parent ∈ earlier, _ ∧
    ∃ p ∈ schema.table? parent.name, _))

instance decidableParentsFirst (schema : Schema) :
    ∀ earlier tables : List TableSpec, Decidable (ParentsFirst schema earlier tables)
  | _, [] => isTrue trivial
  | earlier, table :: rest =>
    have := decidableParentsFirst schema (earlier ++ [table]) rest
    inferInstanceAs (Decidable (_ ∧ _))

/-- The registered sections fit: no constraint looks at a node-local column, and references point
backwards. -/
lemma headSchema_carried : Carried headSchema snapshotSections :=
  ⟨by decide +kernel, by decide +kernel, by decide +kernel, by decide, by decide +kernel,
    by decide +kernel⟩

end HopNet
