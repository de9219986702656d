import HopNet.Context

namespace HopNet

/-- The low `width` bytes of `n`, least significant first. -/
def leBytes (width n : Nat) : Bytes :=
  (List.range width).map fun i => UInt8.ofNat (n / 256 ^ i % 256)

/-- Two's complement, least significant byte first. -/
def leBytesInt (width : Nat) (n : Int) : Bytes := leBytes width (n % 256 ^ width).toNat

/-- The text `hopnet/consensus/v1` and a zero byte. -/
def domain : Bytes :=
  [104, 111, 112, 110, 101, 116, 47, 99, 111, 110, 115, 101, 110, 115, 117, 115, 47, 118, 49, 0]

def tagPrevote : UInt8 := 0x01
def tagPrecommit : UInt8 := 0x02
def tagProposal : UInt8 := 0x03

variable (chainId : Blake3Hash)

def voteSignBytes (vote : ConsensusVote) : Bytes :=
  domain ++ chainId.bytes
    ++ [match vote.typ with | .prevote => tagPrevote | .precommit => tagPrecommit]
    ++ leBytes 8 vote.height
    ++ leBytesInt 8 vote.round.asI64
    ++ (match vote.value with
        | .nil => 0 :: List.replicate 32 0
        | .val hash => 1 :: hash.bytes)
    ++ leBytesInt 4 vote.voter

def proposalSignBytes (proposal : ConsensusProposal) : Bytes :=
  domain ++ chainId.bytes ++ [tagProposal]
    ++ leBytes 8 proposal.height
    ++ leBytesInt 8 proposal.round.asI64
    ++ proposal.value.blockHash.bytes
    ++ leBytesInt 8 proposal.polRound.asI64
    ++ leBytesInt 4 proposal.proposer

def verifyVote (P : Primitives) (chainId : Blake3Hash) (key : PubKey) (vote : ConsensusVote)
    (sig : Signature) : Bool :=
  P.verify key (voteSignBytes chainId vote) sig

end HopNet
