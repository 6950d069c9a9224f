import PeerWire.Message.Field

/-! # The message catalogue

The kinds of message, their tags, their names and their fields in wire order. Every message may
carry more bytes after its declared fields. -/

namespace PeerWire

/-- The kinds of message. -/
inductive MessageKind where
  /-- The features of a peer, first on a connection. -/
  | init
  /-- Something went wrong, on a channel or on the connection. -/
  | error
  /-- Asks whether the peer is there. -/
  | ping
  /-- Answers a ping. -/
  | pong
  /-- Proposes a channel. -/
  | openChannel
  /-- Accepts a proposed channel. -/
  | acceptChannel
  /-- Names the output that funds a channel. -/
  | fundingCreated
  /-- Signs for the funding. -/
  | fundingSigned
  /-- The funding is deep enough in the chain. -/
  | fundingLocked
  /-- Begins to close a channel. -/
  | shutdown
  /-- Offers a fee for the closing. -/
  | closingSigned
  /-- Offers a payment. -/
  | updateAddHtlc
  /-- Settles a payment. -/
  | updateFulfillHtlc
  /-- Gives a payment back. -/
  | updateFailHtlc
  /-- Signs the next state of a channel. -/
  | commitmentSigned
  /-- Gives up the last state of a channel. -/
  | revokeAndAck
  /-- Changes the fee rate of a channel. -/
  | updateFee
  /-- Gives back a payment whose packet could not be read. -/
  | updateFailMalformedHtlc
  /-- Resumes a channel on a new connection. -/
  | channelReestablish
  /-- Proves that a channel exists. -/
  | channelAnnouncement
  /-- Describes a node. -/
  | nodeAnnouncement
  /-- The terms of one end of a channel. -/
  | channelUpdate
  /-- Signs for the announcement of a channel. -/
  | announcementSignatures
  /-- Asks for what is known of some channels. -/
  | queryShortChannelIds
  /-- Ends the answer about some channels. -/
  | replyShortChannelIdsEnd
  /-- Asks for the channels of some blocks. -/
  | queryChannelRange
  /-- Lists the channels of some blocks. -/
  | replyChannelRange
  /-- Says which gossip is wanted. -/
  | gossipTimestampRange
  deriving DecidableEq, Repr

namespace MessageKind

/-- The kinds by ascending tag. -/
def all : List MessageKind := [
  .init, .error, .ping, .pong, .openChannel, .acceptChannel, .fundingCreated, .fundingSigned,
  .fundingLocked, .shutdown, .closingSigned, .updateAddHtlc, .updateFulfillHtlc,
  .updateFailHtlc, .commitmentSigned, .revokeAndAck, .updateFee, .updateFailMalformedHtlc,
  .channelReestablish, .channelAnnouncement, .nodeAnnouncement, .channelUpdate,
  .announcementSignatures, .queryShortChannelIds, .replyShortChannelIdsEnd, .queryChannelRange,
  .replyChannelRange, .gossipTimestampRange]

/-- The tag of a kind. -/
def tag : MessageKind → UInt16
  | .init => 16
  | .error => 17
  | .ping => 18
  | .pong => 19
  | .openChannel => 32
  | .acceptChannel => 33
  | .fundingCreated => 34
  | .fundingSigned => 35
  | .fundingLocked => 36
  | .shutdown => 38
  | .closingSigned => 39
  | .updateAddHtlc => 128
  | .updateFulfillHtlc => 130
  | .updateFailHtlc => 131
  | .commitmentSigned => 132
  | .revokeAndAck => 133
  | .updateFee => 134
  | .updateFailMalformedHtlc => 135
  | .channelReestablish => 136
  | .channelAnnouncement => 256
  | .nodeAnnouncement => 257
  | .channelUpdate => 258
  | .announcementSignatures => 259
  | .queryShortChannelIds => 261
  | .replyShortChannelIdsEnd => 262
  | .queryChannelRange => 263
  | .replyChannelRange => 264
  | .gossipTimestampRange => 265

/-- The name of a kind. -/
def name : MessageKind → String
  | .init => "init"
  | .error => "error"
  | .ping => "ping"
  | .pong => "pong"
  | .openChannel => "open_channel"
  | .acceptChannel => "accept_channel"
  | .fundingCreated => "funding_created"
  | .fundingSigned => "funding_signed"
  | .fundingLocked => "funding_locked"
  | .shutdown => "shutdown"
  | .closingSigned => "closing_signed"
  | .updateAddHtlc => "update_add_htlc"
  | .updateFulfillHtlc => "update_fulfill_htlc"
  | .updateFailHtlc => "update_fail_htlc"
  | .commitmentSigned => "commitment_signed"
  | .revokeAndAck => "revoke_and_ack"
  | .updateFee => "update_fee"
  | .updateFailMalformedHtlc => "update_fail_malformed_htlc"
  | .channelReestablish => "channel_reestablish"
  | .channelAnnouncement => "channel_announcement"
  | .nodeAnnouncement => "node_announcement"
  | .channelUpdate => "channel_update"
  | .announcementSignatures => "announcement_signatures"
  | .queryShortChannelIds => "query_short_channel_ids"
  | .replyShortChannelIdsEnd => "reply_short_channel_ids_end"
  | .queryChannelRange => "query_channel_range"
  | .replyChannelRange => "reply_channel_range"
  | .gossipTimestampRange => "gossip_timestamp_range"

/-- The declared fields of a kind, in wire order. -/
@[reducible] def fields : MessageKind → List Field
  | .init => [
      ⟨"global_features", .features⟩,
      ⟨"local_features", .features⟩]
  | .error => [
      ⟨"channel_id", .blob .channelId⟩,
      ⟨"data", .bytes⟩]
  | .ping => [
      ⟨"num_pong_bytes", .u16⟩,
      ⟨"padding", .bytes⟩]
  | .pong => [
      ⟨"pong_bytes", .bytes⟩]
  | .openChannel => [
      ⟨"chain_hash", .blob .chainHash⟩,
      ⟨"pending_channel_id", .blob .channelId⟩,
      ⟨"funding_satoshis", .satoshi⟩,
      ⟨"push_msat", .milliSatoshi⟩,
      ⟨"dust_limit_satoshis", .satoshi⟩,
      ⟨"max_htlc_value_in_flight_msat", .milliSatoshi⟩,
      ⟨"channel_reserve_satoshis", .satoshi⟩,
      ⟨"htlc_minimum_msat", .milliSatoshi⟩,
      ⟨"feerate_per_kw", .feeRate⟩,
      ⟨"to_self_delay", .u16⟩,
      ⟨"max_accepted_htlcs", .u16⟩,
      ⟨"funding_pubkey", .blob .publicKey⟩,
      ⟨"revocation_basepoint", .blob .publicKey⟩,
      ⟨"payment_basepoint", .blob .publicKey⟩,
      ⟨"delayed_payment_basepoint", .blob .publicKey⟩,
      ⟨"htlc_basepoint", .blob .publicKey⟩,
      ⟨"first_per_commitment_point", .blob .publicKey⟩,
      ⟨"channel_flags", .u8⟩]
  | .acceptChannel => [
      ⟨"pending_channel_id", .blob .channelId⟩,
      ⟨"dust_limit_satoshis", .satoshi⟩,
      ⟨"max_htlc_value_in_flight_msat", .milliSatoshi⟩,
      ⟨"channel_reserve_satoshis", .satoshi⟩,
      ⟨"htlc_minimum_msat", .milliSatoshi⟩,
      ⟨"minimum_depth", .u32⟩,
      ⟨"to_self_delay", .u16⟩,
      ⟨"max_accepted_htlcs", .u16⟩,
      ⟨"funding_pubkey", .blob .publicKey⟩,
      ⟨"revocation_basepoint", .blob .publicKey⟩,
      ⟨"payment_basepoint", .blob .publicKey⟩,
      ⟨"delayed_payment_basepoint", .blob .publicKey⟩,
      ⟨"htlc_basepoint", .blob .publicKey⟩,
      ⟨"first_per_commitment_point", .blob .publicKey⟩]
  | .fundingCreated => [
      ⟨"pending_channel_id", .blob .channelId⟩,
      ⟨"funding_txid", .blob .txid⟩,
      ⟨"funding_output_index", .u16⟩,
      ⟨"signature", .blob .signature⟩]
  | .fundingSigned => [
      ⟨"channel_id", .blob .channelId⟩,
      ⟨"signature", .blob .signature⟩]
  | .fundingLocked => [
      ⟨"channel_id", .blob .channelId⟩,
      ⟨"next_per_commitment_point", .blob .publicKey⟩]
  | .shutdown => [
      ⟨"channel_id", .blob .channelId⟩,
      ⟨"scriptpubkey", .bytes⟩]
  | .closingSigned => [
      ⟨"channel_id", .blob .channelId⟩,
      ⟨"fee_satoshis", .satoshi⟩,
      ⟨"signature", .blob .signature⟩]
  | .updateAddHtlc => [
      ⟨"channel_id", .blob .channelId⟩,
      ⟨"id", .u64⟩,
      ⟨"amount_msat", .milliSatoshi⟩,
      ⟨"payment_hash", .blob .sha256⟩,
      ⟨"cltv_expiry", .u32⟩,
      ⟨"onion_routing_packet", .blob .onionPacket⟩]
  | .updateFulfillHtlc => [
      ⟨"channel_id", .blob .channelId⟩,
      ⟨"id", .u64⟩,
      ⟨"payment_preimage", .blob .paymentPreimage⟩]
  | .updateFailHtlc => [
      ⟨"channel_id", .blob .channelId⟩,
      ⟨"id", .u64⟩,
      ⟨"reason", .bytes⟩]
  | .commitmentSigned => [
      ⟨"channel_id", .blob .channelId⟩,
      ⟨"signature", .blob .signature⟩,
      ⟨"htlc_signatures", .signatures⟩]
  | .revokeAndAck => [
      ⟨"channel_id", .blob .channelId⟩,
      ⟨"per_commitment_secret", .blob .secret⟩,
      ⟨"next_per_commitment_point", .blob .publicKey⟩]
  | .updateFee => [
      ⟨"channel_id", .blob .channelId⟩,
      ⟨"feerate_per_kw", .feeRate⟩]
  | .updateFailMalformedHtlc => [
      ⟨"channel_id", .blob .channelId⟩,
      ⟨"id", .u64⟩,
      ⟨"sha256_of_onion", .blob .sha256⟩,
      ⟨"failure_code", .u16⟩]
  | .channelReestablish => [
      ⟨"channel_id", .blob .channelId⟩,
      ⟨"next_local_commitment_number", .u64⟩,
      ⟨"next_remote_revocation_number", .u64⟩,
      ⟨"last_remote_commit_secret", .blob .secret⟩,
      ⟨"local_unrevoked_commit_point", .blob .publicKey⟩]
  | .channelAnnouncement => [
      ⟨"node_signature_1", .blob .signature⟩,
      ⟨"node_signature_2", .blob .signature⟩,
      ⟨"bitcoin_signature_1", .blob .signature⟩,
      ⟨"bitcoin_signature_2", .blob .signature⟩,
      ⟨"features", .features⟩,
      ⟨"chain_hash", .blob .chainHash⟩,
      ⟨"short_channel_id", .shortChannelId⟩,
      ⟨"node_id_1", .blob .publicKey⟩,
      ⟨"node_id_2", .blob .publicKey⟩,
      ⟨"bitcoin_key_1", .blob .publicKey⟩,
      ⟨"bitcoin_key_2", .blob .publicKey⟩]
  | .nodeAnnouncement => [
      ⟨"signature", .blob .signature⟩,
      ⟨"features", .features⟩,
      ⟨"timestamp", .u32⟩,
      ⟨"node_id", .blob .publicKey⟩,
      ⟨"rgb_color", .blob .rgbColor⟩,
      ⟨"alias", .blob .nodeAlias⟩,
      ⟨"addresses", .addresses⟩]
  | .channelUpdate => [
      ⟨"signature", .blob .signature⟩,
      ⟨"chain_hash", .blob .chainHash⟩,
      ⟨"short_channel_id", .shortChannelId⟩,
      ⟨"timestamp", .u32⟩,
      ⟨"message_flags", .u8⟩,
      ⟨"channel_flags", .u8⟩,
      ⟨"time_lock_delta", .u16⟩,
      ⟨"htlc_minimum_msat", .milliSatoshi⟩,
      ⟨"base_fee", .u32⟩,
      ⟨"fee_rate", .u32⟩,
      ⟨"htlc_maximum_msat", .milliSatoshi⟩]
  | .announcementSignatures => [
      ⟨"channel_id", .blob .channelId⟩,
      ⟨"short_channel_id", .shortChannelId⟩,
      ⟨"node_signature", .blob .signature⟩,
      ⟨"bitcoin_signature", .blob .signature⟩]
  | .queryShortChannelIds => [
      ⟨"chain_hash", .blob .chainHash⟩,
      ⟨"short_channel_ids", .idList⟩]
  | .replyShortChannelIdsEnd => [
      ⟨"chain_hash", .blob .chainHash⟩,
      ⟨"complete", .flag⟩]
  | .queryChannelRange => [
      ⟨"chain_hash", .blob .chainHash⟩,
      ⟨"first_block_height", .u32⟩,
      ⟨"number_of_blocks", .u32⟩]
  | .replyChannelRange => [
      ⟨"chain_hash", .blob .chainHash⟩,
      ⟨"first_block_height", .u32⟩,
      ⟨"number_of_blocks", .u32⟩,
      ⟨"complete", .flag⟩,
      ⟨"short_channel_ids", .idList⟩]
  | .gossipTimestampRange => [
      ⟨"chain_hash", .blob .chainHash⟩,
      ⟨"first_timestamp", .u32⟩,
      ⟨"timestamp_range", .u32⟩]

/-- The kind with a tag: `kind.tag = tag`. -/
def ofTag? (tag : UInt16) : Option MessageKind := all.find? (·.tag = tag)

end MessageKind

/-- The values of the declared fields of a kind. -/
abbrev Contents (kind : MessageKind) := Values kind.fields

end PeerWire
