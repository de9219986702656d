import HopNet.HostCore

namespace HopNet

open Prog Store

variable {E : Engine} {A : Application}

/-- Errors the storage or a decide without its block can cause. -/
def HostError.Fatal {ε : Type} : HostError ε → Prop
  | .storage _ | .missingBlock _ => True
  | .engine _ | .codec _ => False

/-- The effects that can fail. -/
def Effect.Durable : Effect → Prop
  | .walAppend _ _ | .decide _ | .validSyncValue _ _ => True
  | _ => False

lemma get_run (core : HostCore E A) : (get : Host E A _) core = some (.ok core, core) := rfl

variable (C : HostConfig) (core : HostCore E A)

section

variable {α : Type}

lemma onStore_run (op : Store A.State → Except StorageError α × Store A.State) :
    onStore op core = some (.ok (op core.store).1, { core with store := (op core.store).2 }) :=
  rfl

lemma durable_cases (op : Store A.State → Except StorageError (α × Store A.State)) : ∃ n,
    (∃ e, durable C op core =
      some (.error (.storage e), { core with store := core.store.counted n })) ∨
      ∃ a store, op (core.store.counted n) = .ok (a, store) ∧
        durable C op core = some (.ok a, { core with store }) := by
  unfold durable
  rw [bind_of_ok (onStore_run core _)]
  obtain ⟨n, ⟨e, he⟩ | ⟨a, store, ho, ha⟩⟩ :=
    retryTransient_cases C.faults op storageTransientRetries core.store
  · rw [he]
    exact ⟨n, .inl ⟨e, rfl⟩⟩
  · rw [ha]
    exact ⟨n, .inr ⟨a, store, ho, rfl⟩⟩

/-- A dry run counts as one operation of the storage, however it ends. -/
lemma dryRunOnce_eq (origin : ValidationOrigin) (height : Nat) (block : Block) :
    dryRunOnce C origin height block core =
      some (match C.faults core.store.ops with
        | none => .ok (A.validateBlock core.store.app (core.store.ops + 1) height block origin)
        | some .transient => .ok .undetermined
        | some .permanent => .error (.storage .permanent),
        { core with store := core.store.counted 1 }) := by
  unfold dryRunOnce
  rw [bind_of_ok (onStore_run core _)]
  unfold Store.attempt begin
  cases C.faults core.store.ops with
  | none => rfl
  | some e =>
    cases e with
    | transient | permanent => rfl

lemma dryRunOnce_run (origin : ValidationOrigin) (height : Nat) (block : Block) :
    ∃ result, dryRunOnce C origin height block core =
      some (result, { core with store := core.store.counted 1 }) ∧
      ∀ e, result = .error e → e.Fatal := by
  refine ⟨_, dryRunOnce_eq C core origin height block, fun e he => ?_⟩
  split at he
  · cases he
  · cases he
  · cases he
    trivial

lemma validate_run (origin : ValidationOrigin) (height : Nat) (block : Block) :
    ∃ result after, validate C origin height block core = some (result, after) ∧
      (∃ n, after = { core with store := core.store.counted n }) ∧ ∀ e, result = .error e →
        e.Fatal := by
  unfold validate
  obtain ⟨result, ran, fatal⟩ := dryRunOnce_run C core origin height block
  cases result with
  | error e => exact ⟨_, _, bind_of_error ran, ⟨1, rfl⟩, fatal⟩
  | ok verdict =>
    rw [bind_of_ok ran]
    cases verdict with
    | valid | invalid => exact ⟨_, _, rfl, ⟨1, rfl⟩, nofun⟩
    | undetermined =>
      obtain ⟨again, ran', fatal'⟩ := dryRunOnce_run C _ origin height block
      exact ⟨again, _, ran', ⟨2, rfl⟩, fatal'⟩

end

inductive EffectOutcome : Effect → Except (HostError E.Error) Resume → HostCore E A → Prop
  | quiet {effect answer timers sent outputs} (hd : ¬ effect.Durable) :
      EffectOutcome effect (.ok answer) { core with timers, sent, outputs }
  | replayed {height entry} (hr : core.phase ≠ .running) :
      EffectOutcome (.walAppend height entry) (.ok .continue) core
  | logged {height entry n store} (hr : core.phase = .running)
      (ran : walAppend height core.walSeq entry.toWire (core.store.counted n) = .ok ((), store)) :
      EffectOutcome (.walAppend height entry) (.ok .continue)
        { core.appending height with store, walSeq := core.walSeq + 1 }
  | unlogged {height entry n e} :
      EffectOutcome (.walAppend height entry) (.error (.storage e))
        { core.appending height with store := core.store.counted n }
  | missing {cert} : EffectOutcome (.decide cert) (.error (.missingBlock cert.height)) core
  | undecided {cert block n e} (hf : core.blocks cert.height cert.valueId = some block) :
      EffectOutcome (.decide cert) (.error (.storage e))
        { core with handed := core.handed ++ [(block, cert.toWire)], store := core.store.counted n }
  | decided {cert block n store outputs deferredStart inputs}
      (hf : core.blocks cert.height cert.valueId = some block)
      (ran : decideAtomically C.faults A (fun b => (C.encodeBlock b).isOk) cert.height block
        cert.toWire (core.store.counted n) = .ok ((), store))
      (hq : C.onDemand = true → inputs = []) :
      EffectOutcome (.decide cert) (.ok .continue)
        { core.forgetBlocks cert.height with
          handed := core.handed ++ [(block, cert.toWire)], store, lastDecided := some cert.height,
          outputs, deferredStart, pendingInputs := core.pendingInputs ++ inputs, walSeq := 0 }
  | refused {value proposer outputs} :
      EffectOutcome (.validSyncValue value proposer) (.ok .continue) { core with outputs }
  | synced {value proposer block n outputs pv} (hn : block.Named C.prims) :
      EffectOutcome (.validSyncValue value proposer) (.ok .continue)
        { core.insertBlock value.certificate.height block with
          store := core.store.counted n, outputs, pendingInputs :=
            core.pendingInputs ++ [.proposedValue pv .sync] }
  | unvalidated {value proposer n e} (hf : e.Fatal) :
      EffectOutcome (.validSyncValue value proposer) (.error e)
      { core with store := core.store.counted n }

lemma walAppend_outcome (height : Nat) (entry : WalEntry) :
    ∃ result after, handleEffect C (.walAppend height entry) core = some (result, after) ∧
      EffectOutcome C core (.walAppend height entry) result after := by
  by_cases hr : core.phase = .running
  · have hw : appendWal C height entry core =
        (durable C (walAppend height core.walSeq entry.toWire) >>= fun _ =>
          modify fun core => { core with walSeq := core.walSeq + 1 } : Host E A Unit)
            (core.appending height) := congrFun (if_pos hr) core
    obtain ⟨n, ⟨e, he⟩ | ⟨_, store, ho, ha⟩⟩ := durable_cases C (core.appending height)
      (walAppend height core.walSeq entry.toWire)
    · exact ⟨_, _, bind_of_error (hw.trans (bind_of_error he)), .unlogged⟩
    · exact ⟨_, _, bind_of_ok (hw.trans (bind_of_ok ha)), .logged hr ho⟩
  · have hw : appendWal C height entry core = _ := congrFun (if_neg hr) core
    exact ⟨_, _, bind_of_ok hw, .replayed hr⟩

lemma advance_run (height : Nat) (block : Block) : ∃ deferredStart inputs,
    advance C height block core =
      some (.ok (), { core with deferredStart, pendingInputs := core.pendingInputs ++ inputs }) ∧
      (C.onDemand = true → inputs = []) := by
  unfold advance
  split_ifs with hs hd
  · exact ⟨none, [], by rw [List.append_nil]; rfl, fun _ => rfl⟩
  · exact ⟨some (height + 1), [], by rw [List.append_nil]; rfl, fun _ => rfl⟩
  · exact ⟨core.deferredStart, _, rfl, fun ho => absurd ho hd⟩

lemma decide_outcome (cert : CommitCertificate) :
    ∃ result after, handleEffect C (.decide cert) core = some (result, after) ∧
      EffectOutcome C core (.decide cert) result after := by
  cases hf : core.blocks cert.height cert.valueId with
  | none =>
    have hm : onDecide C cert core = some (.error (.missingBlock cert.height), core) := by
      rw [onDecide, bind_of_ok (get_run core), hf]
      rfl
    exact ⟨_, _, bind_of_error hm, .missing⟩
  | some block =>
    let handed : HostCore E A := { core with handed := core.handed ++ [(block, cert.toWire)] }
    have hd : onDecide C cert core =
      (durable C (decideAtomically C.faults A (fun b => (C.encodeBlock b).isOk)
        cert.height block cert.toWire) >>= fun _ => do
          modify fun core => { core.forgetBlocks cert.height with lastDecided := some cert.height }
          emit (.decided cert.height)
          advance C cert.height block
          modify fun core => { core with walSeq := 0 } : Host E A Unit) handed := by
      rw [onDecide, bind_of_ok (get_run core), hf]
      rfl
    obtain ⟨n, ⟨e, he⟩ | ⟨_, store, ho, ha⟩⟩ := durable_cases C handed (decideAtomically C.faults A
      (fun b => (C.encodeBlock b).isOk) cert.height block cert.toWire)
    · exact ⟨_, _, bind_of_error (hd.trans (bind_of_error he)), .undecided hf⟩
    · obtain ⟨deferredStart, inputs, hv, hq⟩ := advance_run C
        { handed.forgetBlocks cert.height with
          store, lastDecided := some cert.height, outputs :=
            core.outputs ++ [.decided cert.height] } cert.height block
      exact ⟨_, _, bind_of_ok (hd.trans ((bind_of_ok ha).trans (bind_of_ok hv))), .decided hf ho hq⟩

lemma validSyncValue_outcome (value : ValueResponse) (proposer : Int) :
    ∃ result after, handleEffect C (.validSyncValue value proposer) core = some (result, after) ∧
      EffectOutcome C core (.validSyncValue value proposer) result after := by
  rw [handleEffect, validSyncValue]
  cases C.decodeBlock value.valueBytes with
  | error e => exact ⟨_, _, rfl, .refused⟩
  | ok block =>
    dsimp only
    split_ifs with hc
    · have named := (block.verify_ok_iff C.prims).1 hc.1
      obtain ⟨result, after, ran, ⟨n, rfl⟩, fatal⟩ :=
        validate_run C core .sync value.certificate.height block
      cases result with
      | error e => exact ⟨_, _, bind_of_error (bind_of_error ran), .unvalidated (fatal e rfl)⟩
      | ok verdict =>
        cases verdict with
        | valid | invalid | undetermined => exact ⟨_, _, bind_of_ok (bind_of_ok ran), .synced named⟩
    · exact ⟨_, _, rfl, .refused⟩

lemma handleEffect_outcome (effect : Effect) :
    ∃ result after, handleEffect C effect core = some (result, after) ∧
      EffectOutcome C core effect result after := by
  cases effect with
  | walAppend height entry => exact walAppend_outcome C core height entry
  | decide cert => exact decide_outcome C core cert
  | validSyncValue value proposer => exact validSyncValue_outcome C core value proposer
  | restreamProposal height round validRound proposer valueId =>
    rw [handleEffect, bind_of_ok (get_run core)]
    cases core.blocks height valueId with
    | none | some => exact ⟨_, _, rfl, .quiet fun hd => hd⟩
  | getValue height round =>
    rw [handleEffect, bind_of_ok (get_run core), when]
    split_ifs <;> exact ⟨_, _, rfl, .quiet fun hd => hd⟩
  | _ => exact ⟨_, _, rfl, .quiet fun hd => hd⟩

end HopNet
