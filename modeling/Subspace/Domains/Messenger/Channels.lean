import Subspace.Domains.Messenger.Types

/-!
# The messenger pallet: channels

The functions of `lib.rs` that create a channel and move it through its
states: `do_init_channel` gives a chain its next channel id, `Initiated`,
with both nonces at zero; `do_open_channel` opens an initiated channel; and
`do_close_channel` closes one that is not closed. `get_open_channel_for_chain`
picks the channel a new message to a chain goes through.

Each function writes its channel only when it succeeds (`try_mutate`), so a
failure leaves the state as it was.
-/

namespace Subspace.Messenger

variable {A : Type} [DecidableEq A]

/-- `do_init_channel`: the new channel's id and the state with the channel
stored under it. -/
def doInitChannel (cfg : Config) (s : State A) (dstChainId : ChainId)
    (initParams : ChannelOpenParamsV1) (maybeOwner : Option A) (checkAllowlist : Bool)
    (channelReserveFee : ℕ) : Except DispatchError (ℕ × State A) := do
  ensure (cfg.selfChainId ≠ dstChainId) (.module .invalidChain)
  ensure (1 ≤ initParams.maxOutgoingMessages) (.module .invalidMaxOutgoingMessages)
  -- an owner on this chain must have reserved a fee
  ensure (maybeOwner.isNone ∨ channelReserveFee ≠ 0) (.module .invalidChannelReserveFee)
  (if checkAllowlist then ensure (dstChainId ∈ s.chainAllowlist) (.module .chainNotAllowed) else pure ())
  let channelId := s.nextChannelId dstChainId
  let nextChannelId ← (checkedAddOne channelId).okOr .arithmeticOverflow
  let channel : Channel A :=
    { channelId
      state := .initiated
      nextInboxNonce := 0
      nextOutboxNonce := 0
      latestResponseReceivedMessageNonce := none
      maxOutgoingMessages := initParams.maxOutgoingMessages
      maybeOwner
      channelReserveFee }
  pure (channelId,
    { s with
      channels := Function.update s.channels (dstChainId, channelId) (some channel)
      nextChannelId := Function.update s.nextChannelId dstChainId nextChannelId })

/-- `do_open_channel`: an initiated channel becomes open. -/
def doOpenChannel (s : State A) (chainId : ChainId) (channelId : ℕ) :
    Except DispatchError (State A) := do
  let channel ← (s.channels (chainId, channelId)).okOr (.module .missingChannel)
  ensure (channel.state = .initiated) (.module .invalidChannelState)
  pure { s with
    channels := Function.update s.channels (chainId, channelId) (some { channel with state := .open }) }

/-- Only the owner of a channel, or root, may close it. -/
def CloseChannelBy.check (closeChannelBy : CloseChannelBy A) (channel : Channel A) : Except DispatchError Unit :=
  match closeChannelBy with
  | .owner account => ensure (channel.maybeOwner = some account) (.module .channelOwner)
  | .sudo => pure ()

/-- The storage layer of `do_close_channel` that gives a channel's owner on
this chain its reserve back. -/
def releaseChannelReserve (env : Env A) (channel : Channel A) : Except DispatchError Unit :=
  match channel.maybeOwner with
  | some owner => env.releaseChannelReserve owner channel.state channel.channelReserveFee
  | none => pure ()

/-- `do_close_channel`: a channel that is not closed becomes closed. Its owner,
if it has one on this chain, gets its reserve back through the currency. -/
def doCloseChannel (env : Env A) (s : State A) (chainId : ChainId) (channelId : ℕ)
    (closeChannelBy : CloseChannelBy A) : Except DispatchError (State A) := do
  let channel ← (s.channels (chainId, channelId)).okOr (.module .missingChannel)
  ensure (channel.state ≠ .closed) (.module .invalidChannelState)
  closeChannelBy.check channel
  releaseChannelReserve env channel
  pure { s with
    channels := Function.update s.channels (chainId, channelId) (some { channel with state := .closed }) }

/-- `get_open_channel_for_chain`: the last channel to the chain that is open
and whose outbox has room. -/
def getOpenChannelForChain (s : State A) (dstChainId : ChainId) : Option ℕ :=
  go (s.nextChannelId dstChainId)
where
  /-- The loop, over the channel ids below `nextChannelId`, from the top. -/
  go : ℕ → Option ℕ
    | 0 => none
    | channelId + 1 =>
      let messageCount := s.outboxMessageCount (dstChainId, channelId)
      match s.channels (dstChainId, channelId) with
      | some channel =>
        if channel.state = .open ∧ messageCount < channel.maxOutgoingMessages.toNat then some channelId
        else go channelId
      | none => go channelId

end Subspace.Messenger
