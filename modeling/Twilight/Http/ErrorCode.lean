import Mathlib.Logic.Basic
import Mathlib.Algebra.Group.Nat.Basic

/-!
`ErrorCode` of `api_error.rs`, its two number tables, and the part of serde's data model its
impls write to and read from.
-/

namespace Twilight.Http

structure F64 where
  bits : UInt64
  deriving DecidableEq, Repr

def highBit (n : Nat) : Nat :=
  (List.range 64).foldl (fun acc i => if n >>> i = 0 then acc else i) 0

/-- `n as f64` for `n < 2^64`: the nearest double, ties to even. -/
def F64.ofNat (n : Nat) : F64 :=
  if n = 0 then ⟨0⟩
  else
    let e := highBit n
    let (m, e) :=
      if e ≤ 52 then (n <<< (52 - e), e)
      else
        let shift := e - 52
        let m := n >>> shift
        let rem := n % 2 ^ shift
        let m := if 2 * rem > 2 ^ shift ∨ (2 * rem = 2 ^ shift ∧ m % 2 = 1) then m + 1 else m
        if m = 2 ^ 53 then (2 ^ 52, e + 1) else (m, e)
    ⟨UInt64.ofNat ((e + 1023) * 2 ^ 52 + m % 2 ^ 52)⟩

def F64.ofInt (v : Int) : F64 :=
  if v < 0 then ⟨(F64.ofNat v.natAbs).bits ||| 0x8000000000000000⟩ else F64.ofNat v.toNat

example : F64.ofNat 3 = ⟨0x4008000000000000⟩ := by decide

/-- The values a self-describing format such as JSON hands to serde's derived impls: the
buffered `Content` an untagged enum is decoded from. JSON gives a non-negative integer as
`u64`, a negative one as `i64`, and `null` as the unit. -/
inductive Content where
  | null
  | bool (value : Bool)
  | u64 (value : UInt64)
  | i64 (value : Int)
  | f64 (value : F64)
  | string (value : String)
  | seq (items : List Content)
  | map (entries : List (String × Content))
  deriving Repr

/-- A field of a map, as serde's derived struct visitor reads it: `none` for a key given
twice (the duplicate-field error), `some none` for an absent key, the value otherwise. Keys the
struct does not name are skipped. -/
def Content.field (entries : List (String × Content)) (key : String) : Option (Option Content) :=
  match entries.filter (·.1 == key) with
  | [] => some none
  | [entry] => some (some entry.2)
  | _ => none

inductive ErrorCode where
  | GeneralError
  | UnknownAccount
  | UnknownApplication
  | UnknownChannel
  | UnknownGuild
  | UnknownIntegration
  | UnknownInvite
  | UnknownMember
  | UnknownMessage
  | UnknownPermissionOverwrite
  | UnknownProvider
  | UnknownRole
  | UnknownToken
  | UnknownUser
  | UnknownEmoji
  | UnknownWebhook
  | UnknownWebhookService
  | UnknownSession
  | UnknownBan
  | UnknownSKU
  | UnknownStoreListing
  | UnknownEntitlement
  | UnknownBuild
  | UnknownLobby
  | UnknownBranch
  | UnknownStoreDirectoryLayout
  | UnknownRedistributable
  | UnknownGiftCode
  | UnknownStream
  | UnknownPremiumServerSubscribeCooldown
  | UnknownGuildTemplate
  | UnknownDiscoverableServerCategory
  | UnknownSticker
  | UnknownInteraction
  | UnknownApplicationCommand
  | UnknownApplicationCommandPermissions
  | UnknownStageInstance
  | UnknownGuildMemberVerificationForm
  | UnknownGuildWelcomeScreen
  | UnknownGuildScheduledEvent
  | UnknownGuildScheduledEventUser
  | BotsCannotUseEndpoint
  | OnlyBotsCanUseEndpoint
  | ExplicitContentSendingBlocked
  | UnauthorizedApplicationAction
  | SlowModeRateLimitReached
  | NotAccountOwner
  | AnnouncementRateLimitReached
  | ChannelRateLimitReached
  | UnallowedWords
  | GuildPremiumTooLow
  | MaximumGuildsReached
  | MaximumFriendsReached
  | MaximumPinsReached
  | MaximumRecipientsReached
  | MaximumRolesReached
  | MaximumWebhooksReached
  | MaximumEmojisReached
  | MaximumReactionsReached
  | MaximumGuildChannelsReached
  | MaximumAttachmentsReached
  | MaximumInvitesReached
  | MaximumAnimatedEmojisReached
  | MaximumGuildMembersReached
  | MaximumServerCategoriesReached
  | GuildTemplateAlreadyExist
  | ThreadMaxParticipants
  | MaximumNonGuildBansReached
  | MaximumGuildBansFetchesReached
  | MaximumStickersReached
  | MaximumPruneRequestsReached
  | Unauthorized
  | AccountNeedsVerification
  | OpeningDirectMessageRateLimitReached
  | RequestEntityTooLarge
  | FeatureTemporarilyDisabled
  | UserBannedFromGuild
  | UserNotInVoice
  | MessageAlreadyCrossposted
  | CommandNameAlreadyExists
  | Missingaccess
  | InvalidAccountType
  | InvalidDMChannelAction
  | GuildWidgetDisabled
  | MessageNotAuthoredByUser
  | EmptyMessage
  | CannotSendMessageToUser
  | CannotSendMessagesInVoiceChannel
  | VerificationLevelTooHigh
  | OAuthApplicationHasNoBot
  | OAuthApplicationLimitReached
  | InvalidOAuthSstate
  | PermissionsLacking
  | InvalidAuthenticationTokenProvided
  | NoteTooLong
  | InvalidMessageDeleteRange
  | MessagePinnedInWrongChannel
  | InviteCodeInvalidOrTaken
  | InvalidActionOnSystemMessage
  | CannotExecuteActionOnChannelType
  | InvalidOAuthAccessToken
  | MissingOAuthScope
  | InvalidWebhookToken
  | InvalidRole
  | InvalidRecipient
  | MessageTooOldToBulkDelete
  | InvalidFormBodyOrContentType
  | InviteAcceptedToGuildBotNotIn
  | InvalidApiVersion
  | CannotSelfRedeemGift
  | PaymentRequiredForGift
  | CommunityGuildRequired
  | InvalidStickerSent
  | ThreadArchived
  | ThreadInvalidNotificationSettings
  | ThreadInvalidBeforeValue
  | ServerNotAvailableLocation
  | ServerNeedsMonetiazation
  | TwoFactorRequired
  | NoSuchUser
  | ReactionBlocked
  | ApiResourceOverloaded
  | StageAlreadyOpen
  | ThreadAlreadyCreated
  | ThreadLocked
  | MaxActiveThreads
  | MaxActiveAnnouncementThreads
  | Other (code : UInt64)

def ErrorCode.num : ErrorCode → UInt64
  | .GeneralError => 0
  | .UnknownAccount => 10001
  | .UnknownApplication => 10002
  | .UnknownChannel => 10003
  | .UnknownGuild => 10004
  | .UnknownIntegration => 10005
  | .UnknownInvite => 10006
  | .UnknownMember => 10007
  | .UnknownMessage => 10008
  | .UnknownPermissionOverwrite => 10009
  | .UnknownProvider => 10010
  | .UnknownRole => 10011
  | .UnknownToken => 10012
  | .UnknownUser => 10013
  | .UnknownEmoji => 10014
  | .UnknownWebhook => 10015
  | .UnknownWebhookService => 10016
  | .UnknownSession => 10020
  | .UnknownBan => 10026
  | .UnknownSKU => 10027
  | .UnknownStoreListing => 10028
  | .UnknownEntitlement => 10029
  | .UnknownBuild => 10030
  | .UnknownLobby => 10031
  | .UnknownBranch => 10032
  | .UnknownStoreDirectoryLayout => 10033
  | .UnknownRedistributable => 10036
  | .UnknownGiftCode => 10038
  | .UnknownStream => 10049
  | .UnknownPremiumServerSubscribeCooldown => 10050
  | .UnknownGuildTemplate => 10057
  | .UnknownDiscoverableServerCategory => 10059
  | .UnknownSticker => 10060
  | .UnknownInteraction => 10062
  | .UnknownApplicationCommand => 10063
  | .UnknownApplicationCommandPermissions => 10066
  | .UnknownStageInstance => 10067
  | .UnknownGuildMemberVerificationForm => 10068
  | .UnknownGuildWelcomeScreen => 10069
  | .UnknownGuildScheduledEvent => 10070
  | .UnknownGuildScheduledEventUser => 10071
  | .BotsCannotUseEndpoint => 20001
  | .OnlyBotsCanUseEndpoint => 20002
  | .ExplicitContentSendingBlocked => 20009
  | .UnauthorizedApplicationAction => 20012
  | .SlowModeRateLimitReached => 20016
  | .NotAccountOwner => 20018
  | .AnnouncementRateLimitReached => 20022
  | .ChannelRateLimitReached => 20028
  | .UnallowedWords => 20031
  | .GuildPremiumTooLow => 20035
  | .MaximumGuildsReached => 30001
  | .MaximumFriendsReached => 30002
  | .MaximumPinsReached => 30003
  | .MaximumRecipientsReached => 30004
  | .MaximumRolesReached => 30005
  | .MaximumWebhooksReached => 30007
  | .MaximumEmojisReached => 30008
  | .MaximumReactionsReached => 30010
  | .MaximumGuildChannelsReached => 30013
  | .MaximumAttachmentsReached => 30015
  | .MaximumInvitesReached => 30016
  | .MaximumAnimatedEmojisReached => 30018
  | .MaximumGuildMembersReached => 30019
  | .MaximumServerCategoriesReached => 30030
  | .GuildTemplateAlreadyExist => 30031
  | .ThreadMaxParticipants => 30033
  | .MaximumNonGuildBansReached => 30035
  | .MaximumGuildBansFetchesReached => 30037
  | .MaximumStickersReached => 30039
  | .MaximumPruneRequestsReached => 30040
  | .Unauthorized => 40001
  | .AccountNeedsVerification => 40002
  | .OpeningDirectMessageRateLimitReached => 40003
  | .RequestEntityTooLarge => 40005
  | .FeatureTemporarilyDisabled => 40006
  | .UserBannedFromGuild => 40007
  | .UserNotInVoice => 40032
  | .MessageAlreadyCrossposted => 40033
  | .CommandNameAlreadyExists => 40041
  | .Missingaccess => 50001
  | .InvalidAccountType => 50002
  | .InvalidDMChannelAction => 50003
  | .GuildWidgetDisabled => 50004
  | .MessageNotAuthoredByUser => 50005
  | .EmptyMessage => 50006
  | .CannotSendMessageToUser => 50007
  | .CannotSendMessagesInVoiceChannel => 50008
  | .VerificationLevelTooHigh => 50009
  | .OAuthApplicationHasNoBot => 50010
  | .OAuthApplicationLimitReached => 50011
  | .InvalidOAuthSstate => 50012
  | .PermissionsLacking => 50013
  | .InvalidAuthenticationTokenProvided => 50014
  | .NoteTooLong => 50015
  | .InvalidMessageDeleteRange => 50016
  | .MessagePinnedInWrongChannel => 50019
  | .InviteCodeInvalidOrTaken => 50020
  | .InvalidActionOnSystemMessage => 50021
  | .CannotExecuteActionOnChannelType => 50024
  | .InvalidOAuthAccessToken => 50025
  | .MissingOAuthScope => 50026
  | .InvalidWebhookToken => 50027
  | .InvalidRole => 50028
  | .InvalidRecipient => 50033
  | .MessageTooOldToBulkDelete => 50034
  | .InvalidFormBodyOrContentType => 50035
  | .InviteAcceptedToGuildBotNotIn => 50036
  | .InvalidApiVersion => 50041
  | .CannotSelfRedeemGift => 50054
  | .PaymentRequiredForGift => 50070
  | .CommunityGuildRequired => 50074
  | .InvalidStickerSent => 50081
  | .ThreadArchived => 50083
  | .ThreadInvalidNotificationSettings => 50084
  | .ThreadInvalidBeforeValue => 50085
  | .ServerNotAvailableLocation => 50095
  | .ServerNeedsMonetiazation => 50097
  | .TwoFactorRequired => 60003
  | .NoSuchUser => 80004
  | .ReactionBlocked => 90001
  | .ApiResourceOverloaded => 130000
  | .StageAlreadyOpen => 150006
  | .ThreadAlreadyCreated => 160004
  | .ThreadLocked => 160005
  | .MaxActiveThreads => 160006
  | .MaxActiveAnnouncementThreads => 160007
  | .Other other => other

set_option maxRecDepth 4096 in
def ErrorCode.from (int : UInt64) : ErrorCode :=
  if int = 0 then .GeneralError
  else if int = 10001 then .UnknownAccount
  else if int = 10002 then .UnknownApplication
  else if int = 10003 then .UnknownChannel
  else if int = 10004 then .UnknownGuild
  else if int = 10005 then .UnknownIntegration
  else if int = 10006 then .UnknownInvite
  else if int = 10007 then .UnknownMember
  else if int = 10008 then .UnknownMessage
  else if int = 10009 then .UnknownPermissionOverwrite
  else if int = 10010 then .UnknownProvider
  else if int = 10011 then .UnknownRole
  else if int = 10012 then .UnknownToken
  else if int = 10013 then .UnknownUser
  else if int = 10014 then .UnknownEmoji
  else if int = 10015 then .UnknownWebhook
  else if int = 10016 then .UnknownWebhookService
  else if int = 10020 then .UnknownSession
  else if int = 10026 then .UnknownBan
  else if int = 10027 then .UnknownSKU
  else if int = 10028 then .UnknownStoreListing
  else if int = 10029 then .UnknownEntitlement
  else if int = 10030 then .UnknownBuild
  else if int = 10031 then .UnknownLobby
  else if int = 10032 then .UnknownBranch
  else if int = 10033 then .UnknownStoreDirectoryLayout
  else if int = 10036 then .UnknownRedistributable
  else if int = 10038 then .UnknownGiftCode
  else if int = 10049 then .UnknownStream
  else if int = 10050 then .UnknownPremiumServerSubscribeCooldown
  else if int = 10057 then .UnknownGuildTemplate
  else if int = 10059 then .UnknownDiscoverableServerCategory
  else if int = 10060 then .UnknownSticker
  else if int = 10062 then .UnknownInteraction
  else if int = 10063 then .UnknownApplicationCommand
  else if int = 10066 then .UnknownApplicationCommandPermissions
  else if int = 10067 then .UnknownStageInstance
  else if int = 10068 then .UnknownGuildMemberVerificationForm
  else if int = 10069 then .UnknownGuildWelcomeScreen
  else if int = 10070 then .UnknownGuildScheduledEvent
  else if int = 10071 then .UnknownGuildScheduledEventUser
  else if int = 20001 then .BotsCannotUseEndpoint
  else if int = 20002 then .OnlyBotsCanUseEndpoint
  else if int = 20022 then .AnnouncementRateLimitReached
  else if int = 20009 then .ExplicitContentSendingBlocked
  else if int = 20012 then .UnauthorizedApplicationAction
  else if int = 20016 then .SlowModeRateLimitReached
  else if int = 20018 then .NotAccountOwner
  else if int = 20028 then .ChannelRateLimitReached
  else if int = 20031 then .UnallowedWords
  else if int = 20035 then .GuildPremiumTooLow
  else if int = 30001 then .MaximumGuildsReached
  else if int = 30002 then .MaximumFriendsReached
  else if int = 30003 then .MaximumPinsReached
  else if int = 30004 then .MaximumRecipientsReached
  else if int = 30005 then .MaximumRolesReached
  else if int = 30007 then .MaximumWebhooksReached
  else if int = 30008 then .MaximumEmojisReached
  else if int = 30010 then .MaximumReactionsReached
  else if int = 30013 then .MaximumGuildChannelsReached
  else if int = 30015 then .MaximumAttachmentsReached
  else if int = 30016 then .MaximumInvitesReached
  else if int = 30018 then .MaximumAnimatedEmojisReached
  else if int = 30019 then .MaximumGuildMembersReached
  else if int = 30030 then .MaximumServerCategoriesReached
  else if int = 30031 then .GuildTemplateAlreadyExist
  else if int = 30033 then .ThreadMaxParticipants
  else if int = 30035 then .MaximumNonGuildBansReached
  else if int = 30037 then .MaximumGuildBansFetchesReached
  else if int = 30039 then .MaximumStickersReached
  else if int = 30040 then .MaximumPruneRequestsReached
  else if int = 40001 then .Unauthorized
  else if int = 40002 then .AccountNeedsVerification
  else if int = 40003 then .OpeningDirectMessageRateLimitReached
  else if int = 40005 then .RequestEntityTooLarge
  else if int = 40006 then .FeatureTemporarilyDisabled
  else if int = 40007 then .UserBannedFromGuild
  else if int = 40032 then .UserNotInVoice
  else if int = 40033 then .MessageAlreadyCrossposted
  else if int = 40041 then .CommandNameAlreadyExists
  else if int = 50001 then .Missingaccess
  else if int = 50002 then .InvalidAccountType
  else if int = 50003 then .InvalidDMChannelAction
  else if int = 50004 then .GuildWidgetDisabled
  else if int = 50005 then .MessageNotAuthoredByUser
  else if int = 50006 then .EmptyMessage
  else if int = 50007 then .CannotSendMessageToUser
  else if int = 50008 then .CannotSendMessagesInVoiceChannel
  else if int = 50009 then .VerificationLevelTooHigh
  else if int = 50010 then .OAuthApplicationHasNoBot
  else if int = 50011 then .OAuthApplicationLimitReached
  else if int = 50012 then .InvalidOAuthSstate
  else if int = 50013 then .PermissionsLacking
  else if int = 50014 then .InvalidAuthenticationTokenProvided
  else if int = 50015 then .NoteTooLong
  else if int = 50016 then .InvalidMessageDeleteRange
  else if int = 50019 then .MessagePinnedInWrongChannel
  else if int = 50020 then .InviteCodeInvalidOrTaken
  else if int = 50021 then .InvalidActionOnSystemMessage
  else if int = 50024 then .CannotExecuteActionOnChannelType
  else if int = 50025 then .InvalidOAuthAccessToken
  else if int = 50026 then .MissingOAuthScope
  else if int = 50027 then .InvalidWebhookToken
  else if int = 50028 then .InvalidRole
  else if int = 50033 then .InvalidRecipient
  else if int = 50034 then .MessageTooOldToBulkDelete
  else if int = 50035 then .InvalidFormBodyOrContentType
  else if int = 50036 then .InviteAcceptedToGuildBotNotIn
  else if int = 50041 then .InvalidApiVersion
  else if int = 50054 then .CannotSelfRedeemGift
  else if int = 50070 then .PaymentRequiredForGift
  else if int = 50074 then .CommunityGuildRequired
  else if int = 50081 then .InvalidStickerSent
  else if int = 50083 then .ThreadArchived
  else if int = 50084 then .ThreadInvalidNotificationSettings
  else if int = 50085 then .ThreadInvalidBeforeValue
  else if int = 50095 then .ServerNotAvailableLocation
  else if int = 50097 then .ServerNeedsMonetiazation
  else if int = 60003 then .TwoFactorRequired
  else if int = 80004 then .NoSuchUser
  else if int = 90001 then .ReactionBlocked
  else if int = 130000 then .ApiResourceOverloaded
  else if int = 150006 then .StageAlreadyOpen
  else if int = 160004 then .ThreadAlreadyCreated
  else if int = 160005 then .ThreadLocked
  else if int = 160006 then .MaxActiveThreads
  else if int = 160007 then .MaxActiveAnnouncementThreads
  else .Other int

def ErrorCode.serialize (code : ErrorCode) : Content := .u64 code.num

def ErrorCode.deserialize : Content → Option ErrorCode
  | .u64 int => some (ErrorCode.from int)
  | _ => none

/-- A code that is not `Other(k)` for a number `k` that `from` names. -/
def ErrorCode.Canonical (code : ErrorCode) : Prop :=
  ∀ k, code = .Other k → ErrorCode.from k = .Other k

theorem ErrorCode.num_ite {c rest : ErrorCode} {k int : UInt64} (named : c.num = k)
    (fallback : rest.num = int) : (if int = k then c else rest).num = int := by
  split
  next same => rw [named, same]
  next => exact fallback

set_option maxRecDepth 4096 in
theorem ErrorCode.num_from (int : UInt64) : (ErrorCode.from int).num = int := by
  delta ErrorCode.from
  repeat' refine ErrorCode.num_ite rfl ?_
  rfl

set_option maxRecDepth 4096 in
theorem ErrorCode.from_num (code : ErrorCode) (canonical : code.Canonical) :
    ErrorCode.from code.num = code := by
  cases code
  case Other k => exact canonical k rfl
  all_goals rfl

theorem ErrorCode.num_injective {c d : ErrorCode} (canonicalC : c.Canonical)
    (canonicalD : d.Canonical) (same : c.num = d.num) : c = d := by
  rw [← ErrorCode.from_num c canonicalC, same, ErrorCode.from_num d canonicalD]

/-- `num` and `From<u64>` are inverse on canonical codes: every number survives
`from` then `num`, every canonical code survives `num` then `from` and so serde's round
trip, and distinct canonical codes have distinct numbers. -/
theorem errorCode_num_from_inverse :
    (∀ int : UInt64, (ErrorCode.from int).num = int) ∧
    (∀ code : ErrorCode, code.Canonical → ErrorCode.from code.num = code) ∧
    (∀ code : ErrorCode, code.Canonical → ErrorCode.deserialize code.serialize = some code) ∧
    (∀ c d : ErrorCode, c.Canonical → d.Canonical → c ≠ d → c.num ≠ d.num) :=
  ⟨ErrorCode.num_from, ErrorCode.from_num,
    fun code canonical => congrArg some (ErrorCode.from_num code canonical),
    fun _ _ canonicalC canonicalD distinct same =>
      distinct (ErrorCode.num_injective canonicalC canonicalD same)⟩

end Twilight.Http
