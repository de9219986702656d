import HopNet.Node.Access

namespace HopNet

open Fallible Runs List

inductive DeviceTx where
  | registerDevice (device : DeviceRow)
  | revokeDevice (deviceId : CustomUUID) (userId : Int)

namespace NodeTables

variable (t : NodeTables)

def insertDeviceTokenTx (device : DeviceRow) : DbResult NodeTables := do
  require ((∀ row ∈ t.devices, row.id ≠ device.id) ∧ UserExists t.users device.userId) .insertError
  return { t with devices := t.devices ++ [device] }

/-- No row, no error. A claim of `photo_ingress_responsibility` holds its row by a foreign key. -/
def deleteDeviceTokenTx (deviceId : CustomUUID) (userId : Int) : DbResult NodeTables := do
  require (∀ row ∈ t.devices, row.id = deviceId ∧ row.userId = userId →
    ∀ claim ∈ t.photos.ingress, claim.deviceId ≠ row.id) .processingError
  return { t with devices := t.devices.filter fun row =>
    ¬ (row.id = deviceId ∧ row.userId = userId) }

end NodeTables

def DeviceTx.process (signer : Option Int) (t : NodeTables) : DeviceTx → DbResult NodeTables
  | .registerDevice device => do
      requireSigner signer device.userId
      t.insertDeviceTokenTx device
  | .revokeDevice deviceId userId => do
      requireSigner signer userId
      t.deleteDeviceTokenTx deviceId userId

inductive DeviceEvent where
  | device (signer : Option Int) (tx : DeviceTx)
  | projection (ctx : ProjectionCtx) (signer : Option Int) (tx : ProjectionTx)
  /-- Another part's transaction leaves the devices and the photos alone. -/
  | other

def DeviceStep (decode : AccessDecoder) (expired : Expiry) (t : NodeTables)
    (event : DeviceEvent) (t' : NodeTables) : Prop :=
  match event with
  | .device signer tx => tx.process signer t = .ok t'
  | .projection ctx signer tx => tx.process decode expired ctx signer t = .ok t'
  | .other => t'.devices = t.devices ∧ t'.photos = t.photos

section

variable {t t' : NodeTables} {signer : Option Int}

lemma DeviceTx.process_ids {tx : DeviceTx} (hd : (t.devices.map (·.id)).Nodup)
    (ran : tx.process signer t = .ok t') : (t'.devices.map (·.id)).Nodup := by
  cases tx with
  | registerDevice device =>
    simp only [process, NodeTables.insertDeviceTokenTx, bind_eq_ok, exists_require, pure_eq_ok]
      at ran
    obtain ⟨_, _, ⟨free, _⟩, rfl⟩ := ran
    exact Table.nodup_map_append_singleton.2 ⟨hd, free⟩
  | revokeDevice deviceId userId =>
    simp only [process, NodeTables.deleteDeviceTokenTx, bind_eq_ok, exists_require, pure_eq_ok]
      at ran
    obtain ⟨_, _, _, rfl⟩ := ran
    exact hd.sublist (filter_sublist.map _)

/-- The projections read the devices and do not write them. -/
lemma ProjectionTx.process_devices {decode expired ctx} {tx : ProjectionTx}
    (ran : tx.process decode expired ctx signer t = .ok t') : t'.devices = t.devices := by
  cases tx with
  | drive tx =>
    simp only [process, bind_eq_ok, pure_eq_ok] at ran
    obtain ⟨_, _, rfl⟩ := ran
    rfl
  | photos tx =>
    simp only [process, bind_eq_ok, pure_eq_ok] at ran
    obtain ⟨_, _, rfl⟩ := ran
    rfl

lemma DeviceStep.ids {decode expired event} (hd : (t.devices.map (·.id)).Nodup)
    (step : DeviceStep decode expired t event t') : (t'.devices.map (·.id)).Nodup := by
  cases event with
  | device signer tx => exact DeviceTx.process_ids hd step
  | projection ctx signer tx => exact (ProjectionTx.process_devices step).symm ▸ hd
  | other => exact step.1.symm ▸ hd

/-- In every state reached, the revocation of a device by its user is accepted and leaves neither
the device nor a claim on it exactly where no claim on the ingress names the device. -/
theorem revoke_own_device_iff (decode : AccessDecoder) (expired : Expiry)
    (t₀ t : NodeTables) (past : List DeviceEvent) (device : DeviceRow) (start : t₀.devices = [])
    (run : Reaches (DeviceStep decode expired) t₀ past t) (owned : device ∈ t.devices) :
    (∃ t', (DeviceTx.revokeDevice device.id device.userId).process (some device.userId) t = .ok t' ∧
      (∀ row ∈ t'.devices, row.id ≠ device.id) ∧
        ∀ claim ∈ t'.photos.ingress, claim.deviceId ≠ device.id) ↔
    ∀ claim ∈ t.photos.ingress, claim.deviceId ≠ device.id := by
  have ids : (t.devices.map (·.id)).Nodup :=
    run.invariant_state (fun t => (t.devices.map (·.id)).Nodup)
      (by simp [start]) fun _ _ _ hd step => step.ids hd
  simp only [DeviceTx.process, NodeTables.deleteDeviceTokenTx, bind_eq_ok, requireSigner_eq_ok,
    exists_require, exists_const, pure_eq_ok, true_and]
  constructor
  · rintro ⟨_, ⟨_, rfl⟩, _, free⟩
    exact free
  · intro free
    refine ⟨_, ⟨fun row _ named => named.1.symm ▸ free, rfl⟩, ?_, free⟩
    intro row kept same
    have isDevice : row = device := inj_on_of_nodup_map ids (mem_of_mem_filter kept) owned same
    simp [isDevice] at kept

end

def deviceNext (t : NodeTables) : DeviceEvent → Option NodeTables
  | .device signer tx => (tx.process signer t).toOption
  | .projection ctx signer tx => (tx.process sampleDecode allExpired ctx signer t).toOption
  | .other => none

lemma deviceNext_sound {t t' event} (hn : deviceNext t event = some t') :
    DeviceStep sampleDecode allExpired t event t' := by
  cases event with
  | device signer tx => exact toOption_eq_some.1 hn
  | projection ctx signer tx => exact toOption_eq_some.1 hn
  | other => cases hn

def sampleDevice (id : Nat) : DeviceRow := ⟨⟨BitVec.ofNat 128 id⟩, 1, .replicate 32 0, "", []⟩

/-- User 1 registers two devices; the first claims its personal ingress. -/
def claimPersonal : List DeviceEvent :=
  [.device (some 1) (.registerDevice (sampleDevice 1)),
    .device (some 1) (.registerDevice (sampleDevice 2)),
    .projection sampleProjection (some 1) (.photos (.photoIngressClaim ⟨⟨1⟩, ⟨5⟩, none⟩))]

def personalClaimed : NodeTables := final deviceNext emptyNode claimPersonal

/-- The device with the claim cannot be revoked. -/
theorem claimed_device_stays :
    Reaches (DeviceStep sampleDecode allExpired) emptyNode claimPersonal personalClaimed ∧
      sampleDevice 1 ∈ personalClaimed.devices ∧
      (DeviceTx.revokeDevice ⟨1⟩ 1).process (some 1) personalClaimed = .error .processingError :=
  ⟨.of_foldlM deviceNext_sound (by decide +kernel), by decide +kernel⟩

theorem unclaimed_device_revoked :
    ∃ t', (DeviceTx.revokeDevice ⟨2⟩ 1).process (some 1) personalClaimed = .ok t' ∧
    (∀ row ∈ t'.devices, row.id ≠ ⟨2⟩) ∧ ∀ claim ∈ t'.photos.ingress, claim.deviceId ≠ ⟨2⟩ :=
  (revoke_own_device_iff sampleDecode allExpired emptyNode personalClaimed claimPersonal
    (sampleDevice 2) rfl
    (.of_foldlM deviceNext_sound (by decide +kernel)) (by decide +kernel)).2 (by decide +kernel)

end HopNet
