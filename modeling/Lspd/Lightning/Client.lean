import Lspd.Lightning.OutPoint
import Lspd.Lightning.ShortChannelID

/-! The channels of a node as `ListChannels` returns them, for both backends.
An entry that the client leaves nil is `none`. -/

namespace Lspd.Lightning

/-- `lightning.Channel`. -/
structure Channel where
  aliasScid : Option ShortChannelID
  confirmedScid : Option ShortChannelID
  channelPoint : Option OutPoint
  peerId : Bytes
  deriving DecidableEq

end Lspd.Lightning

namespace Lspd.Lnd

open Lspd.Lightning

/-- The fields of `lnrpc.Channel` the client reads. -/
structure Channel where
  remotePubkey : String
  channelPoint : String
  active : Bool
  chanId : UInt64
  zeroConf : Bool
  zeroConfConfirmedScid : UInt64
  aliasScids : List UInt64

/-- The fields of `lnrpc.PendingChannelsResponse_PendingChannel` the client reads. -/
structure PendingChannel where
  remoteNodePub : String
  channelPoint : String

/-- What `LndClient.OpenChannel` returns for the channel point of `OpenChannelSync`. -/
def openedChannelPoint (fundingTxidBytes : Bytes) (outputIndex : UInt32) : Option OutPoint :=
  newOutPoint fundingTxidBytes outputIndex

/-- The alias and the confirmed scid. -/
def mapScidsFromChannel (c : Channel) : Option ShortChannelID × Option ShortChannelID :=
  if c.zeroConf then
    (some c.chanId, if c.zeroConfConfirmedScid ≠ 0 then some c.zeroConfConfirmedScid else none)
  else (c.aliasScids.head?, some c.chanId)

/-- `LndClient.ListChannels` from the answers to its two calls. A channel whose
peer does not decode stays nil, a pending one is dropped; a channel point that
does not parse is only logged. -/
def listChannels (channels : List Channel) (pendingOpenChannels : List PendingChannel) :
    List (Option Lightning.Channel) :=
  channels.map (fun c => (decodeString c.remotePubkey).map fun peerId =>
    { aliasScid := (mapScidsFromChannel c).1
      confirmedScid := (mapScidsFromChannel c).2
      channelPoint := newOutPointFromString c.channelPoint
      peerId }) ++
  pendingOpenChannels.filterMap fun c => (decodeString c.remoteNodePub).map fun peerId => some
    { aliasScid := none
      confirmedScid := none
      channelPoint := newOutPointFromString c.channelPoint
      peerId }

end Lspd.Lnd

namespace Lspd.Cln

open Lspd.Lightning

/-- The fields of `rpc.ListpeerchannelsChannels` that `ListChannels` reads. -/
structure ListpeerchannelsChannels where
  peerId : Bytes
  shortChannelId : Option String
  aliasLocal : Option String
  fundingTxid : Bytes
  fundingOutnum : Option UInt32

/-- The alias and the confirmed scid. The error shows the address of the text
it is about, which is left out here. -/
def mapScidsFromChannel (c : ListpeerchannelsChannels) :
    Except String (Option ShortChannelID × Option ShortChannelID) := do
  let parse (text : Option String) : Except String (Option ShortChannelID) :=
    match text with
    | none => .ok none
    | some text => (newShortChannelIDFromString text).map some |>.mapError fun err =>
        s!"failed to parse scid: {err}"
  let confirmedScid ← parse c.shortChannelId
  let aliasScid ← parse c.aliasLocal
  return (aliasScid, confirmedScid)

/-- The funding outpoint of a channel; cln lists ids in the order they are shown. -/
def channelPoint (c : ListpeerchannelsChannels) : Option OutPoint :=
  if c.fundingTxid = [] then none
  else c.fundingOutnum.bind fun outnum => newOutPoint c.fundingTxid.reverse outnum

/-- `ClnClient.ListChannels` from the answer to its call. One scid that does not
parse fails the whole list, a channel without an outpoint stays nil. -/
def listChannels (channels : List ListpeerchannelsChannels) :
    Except String (List (Option Lightning.Channel)) :=
  channels.mapM fun channel => do
    let (aliasScid, confirmedScid) ← mapScidsFromChannel channel
    return (channelPoint channel).map fun outpoint =>
      { aliasScid, confirmedScid, channelPoint := some outpoint, peerId := channel.peerId }

end Lspd.Cln
