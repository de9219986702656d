import Mathlib.Data.Prod.Lex
import HopNet.Lib.Extremes
import HopNet.Signing

namespace HopNet

abbrev BlobId := CustomUUID

def originalFragmentsPerChunk : Nat := 10
def recoveryFragmentsPerChunk : Nat := 20
def totalFragmentsPerChunk : Nat := originalFragmentsPerChunk + recoveryFragmentsPerChunk

/-- The low `width` bytes of `n`, most significant first. -/
def beBytes (width n : Nat) : Bytes := (leBytes width n).reverse

def beBytesInt (width : Nat) (n : Int) : Bytes := (leBytesInt width n).reverse

def ofBeBytes (bytes : Bytes) : Nat := bytes.foldl (fun n b => n * 256 + b.toNat) 0

def CustomUUID.asBytes (u : CustomUUID) : Bytes := beBytes 16 u.value.toNat

/-- A placement weight per node; a node without one has the minimum, 1. -/
abbrev Weights := List (Int × Nat)

def Weights.get (weights : Weights) (node : Int) : Nat := (weights.lookup node).getD 1

class PlacementNode (N : Type) where
  nodeId : N → Int

instance : PlacementNode Int := ⟨id⟩

section

variable (P : Primitives)

def placementSeed (blobId : BlobId) : Bytes := (P.blake3 blobId.asBytes).bytes

variable (seed : Bytes)

/-- Where round `i` of the shuffle of `len` elements finds its element. -/
def swapIndex (len i : Nat) : Nat :=
  let hash := P.blake3 (seed ++ beBytes 8 i)
  let randomValue := ofBeBytes (hash.bytes.take 8)
  i + randomValue % (len - i)

/-- Fisher-Yates with the hash as the source of randomness. -/
def deterministicShuffle {N : Type} (nodes : Array N) (seed : Bytes) : Array N :=
  (List.range (nodes.size - 1)).foldl
    (fun shuffled i => shuffled.swapIfInBounds i (swapIndex P seed nodes.size i)) nodes

/-- Heaviest first, ties to the smaller node id. -/
def RanksBefore {N : Type} [PlacementNode N] (weights : Weights) (a b : N) : Prop :=
  weights.get (PlacementNode.nodeId b) < weights.get (PlacementNode.nodeId a) ∨
    weights.get (PlacementNode.nodeId b) = weights.get (PlacementNode.nodeId a) ∧
      PlacementNode.nodeId a ≤ PlacementNode.nodeId b

instance {N : Type} [PlacementNode N] (weights : Weights) :
    DecidableRel (RanksBefore (N := N) weights) :=
  fun _ _ => inferInstanceAs (Decidable (_ ∨ _))

/-- Up to 30 members are all used; of more, the heaviest 60 are shuffled and 30 kept. -/
def selectNodesForBlob {N : Type} [PlacementNode N] (members : List N) (weights : Weights)
    (placementSeed : Bytes) : List N :=
  if members.length ≤ 30 then members
  else
    let ranked := members.insertionSort (RanksBefore weights)
    let pool := ranked.take (min 60 ranked.length)
    let shuffled := (deterministicShuffle P pool.toArray placementSeed).toList
    shuffled.take (min 30 shuffled.length)

/-- Per class the lowest score wins among the least loaded, ties to the smaller id. -/
def assignClasses (members : List Int) (score : Int → Nat → Nat) : List Nat → (Int → Nat) → List Int
  | [], _ => []
  | fragmentClass :: rest, loads =>
    match (members.map loads).min? with
    | none => []
    | some minLoad =>
      match Extremes.leastBy (fun m => toLex (score m fragmentClass, m))
          (members.filter fun m => loads m = minLoad) with
      -- The source expects the tier to be non-empty; it is the one with the minimum in it.
      | none => []
      | some chosen =>
        chosen :: assignClasses members score rest (Function.update loads chosen (loads chosen + 1))

def assignClassesByScore (members : List Int) (nClasses : Nat) (score : Int → Nat → Nat) :
    List Int :=
  if members.isEmpty then []
  else assignClasses members score (List.range nClasses) fun _ => 0

def classScore (weights : Weights) (node : Int) (fragmentClass : Nat) : Nat :=
  let hash := P.blake3 (seed ++ beBytes 4 fragmentClass ++ beBytesInt 4 node)
  ofBeBytes (hash.bytes.take 8) / max (weights.get node) 1

def assignFragmentClasses (members : List Int) (weights : Weights) (nClasses : Nat) : List Int :=
  assignClassesByScore members nClasses (classScore P seed weights)

end

/-- The members of a storage view, by node id, and their weights. -/
structure StorageView where
  members : List Int
  weights : Weights

/-- The placement inputs of one storage view. -/
structure ViewSnapshot where
  members : List Int
  weights : Weights
deriving DecidableEq

namespace ViewSnapshot

/-- Members ascending and without repeats, with their weights. In a sorted list all repeats are next
to each other. -/
def ofView (view : StorageView) : ViewSnapshot :=
  let members := (view.members.insertionSort (· ≤ ·)).dedup
  ⟨members, members.map fun n => (n, view.weights.get n)⟩

/-- Class to responsible node: selection by weight, balanced rendezvous. -/
def assignment (P : Primitives) (snapshot : ViewSnapshot) (blobId : BlobId) : List Int :=
  let seed := placementSeed P blobId
  let selected := selectNodesForBlob P snapshot.members snapshot.weights seed
  assignFragmentClasses P seed selected snapshot.weights totalFragmentsPerChunk

end ViewSnapshot

end HopNet
