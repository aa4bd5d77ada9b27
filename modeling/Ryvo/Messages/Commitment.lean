import Ryvo.Messages.Varint
import Ryvo.State.Config

/-!
# Messages — Payment commitments

A commitment names a payer, a payee, a token and the cumulative amount the payer has agreed to on that lane, and optionally a settler who may submit it in the payee's place.
-/

namespace Ryvo

namespace Commitment

def messageKind : UInt8 := 0x01
def messageVersion : UInt8 := 0x05
def flagAuthorizedSettler : UInt8 := 0x01
def minMsgSize : Nat := 24

end Commitment

/-- What a commitment message says: the two participants, the token, the total paid so far, and who may settle it if not anybody. -/
structure ParsedCommitmentMessage where
  payerId : U32
  payeeId : U32
  tokenId : U16
  committedAmount : Nat
  authorizedSettler : Option Pubkey
  deriving DecidableEq

open Commitment in
/-- The settler's key, where the flag announces one. -/
def readAuthorizedSettler (flags : UInt8) (msg : List UInt8) :
    Result (Option Pubkey × List UInt8) :=
  if flags &&& flagAuthorizedSettler ≠ 0 then do
    let (bytes, rest) ← takeBytes .invalidCommitmentMessage 32 msg
    pure (some (Pubkey.ofBytes bytes), rest)
  else .ok (none, msg)

open Commitment in
/-- The whole message is read, and nothing may follow. -/
def parseCommitmentMessage (msg : List UInt8) (config : GlobalConfig) :
    Result ParsedCommitmentMessage := do
  require (minMsgSize ≤ msg.length) (.vault .invalidCommitmentMessage)
  let (kind, rest) ← takeByte .invalidCommitmentMessage msg
  let (version, rest) ← takeByte .invalidCommitmentMessage rest
  require (kind = messageKind ∧ version = messageVersion) (.vault .invalidCommitmentMessage)
  let (domain, rest) ← takeBytes .invalidCommitmentMessage 16 rest
  require (domain = config.messageDomain) (.vault .invalidMessageDomain)
  let (flags, rest) ← takeByte .invalidCommitmentMessage rest
  require (flags &&& ~~~flagAuthorizedSettler = 0) (.vault .invalidCommitmentMessage)
  let (payerId, rest) ← readVarintU32 .invalidCommitmentMessage rest
  let (payeeId, rest) ← readVarintU32 .invalidCommitmentMessage rest
  let (token, rest) ← takeBytes .invalidCommitmentMessage 2 rest
  let (committedAmount, rest) ← readVarintU64 .invalidCommitmentMessage rest
  let (authorizedSettler, rest) ← readAuthorizedSettler flags rest
  require (rest = []) (.vault .invalidCommitmentMessage)
  pure { payerId, payeeId, tokenId := Fin.ofNat _ (leNat token), committedAmount, authorizedSettler }

/-- A commitment that parses carries this deployment's domain. -/
theorem parseCommitmentMessage_domain {msg : List UInt8} {config : GlobalConfig}
    {parsed : ParsedCommitmentMessage} (h : parseCommitmentMessage msg config = .ok parsed) :
    (msg.drop 2).take 16 = config.messageDomain := by
  rcases msg with _ | ⟨kind, _ | ⟨version, rest⟩⟩
  · simp [parseCommitmentMessage, Commitment.minMsgSize] at h
  · simp [parseCommitmentMessage, Commitment.minMsgSize] at h
  · simp only [parseCommitmentMessage, takeByte, takeBytes, Except.bind_eq_ok, require_eq_ok,
      exists_const, Except.ok_bind, Except.pure_eq_ok, Prod.exists, Prod.mk.injEq] at h
    obtain ⟨-, -, domain, rest', ⟨-, rfl, rfl⟩, hd, -⟩ := h
    simpa using hd

theorem parseCommitmentMessage_amount_lt {msg : List UInt8} {config : GlobalConfig}
    {parsed : ParsedCommitmentMessage} (h : parseCommitmentMessage msg config = .ok parsed) :
    parsed.committedAmount < u64Bound := by
  simp only [parseCommitmentMessage, Except.bind_eq_ok, require_eq_ok, exists_const, Prod.exists,
    Except.pure_eq_ok] at h
  obtain ⟨-, _, _, -, _, _, -, -, _, _, -, -, _, _, -, -, _, _, -, _, _, -, _, _, -, amount, _,
    hamount, _, _, -, -, rfl⟩ := h
  exact readVarintU64_lt hamount

end Ryvo
