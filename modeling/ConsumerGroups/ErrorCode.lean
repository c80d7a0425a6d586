/-! # Error codes of the cluster

A broker reports what went wrong with an item as a number. Zero means that nothing did; the
numbers `-1` and `1` to `106` have names; any other number is reported as unknown.
-/

namespace ConsumerGroups.ErrorCode

/-- The names of the codes from `1` on, in order. -/
def names : Array String := #[
   "OffsetOutOfRange", "CorruptMessage", "UnknownTopicOrPartition", "InvalidFetchSize",
   "LeaderNotAvailable", "NotLeaderOrFollower", "RequestTimedOut", "BrokerNotAvailable",
   "ReplicaNotAvailable", "MessageTooLarge", "StaleControllerEpoch", "OffsetMetadataTooLarge",
   "NetworkException", "CoordinatorLoadInProgress", "CoordinatorNotAvailable", "NotCoordinator",
   "InvalidTopicException", "RecordListTooLarge", "NotEnoughReplicas",
   "NotEnoughReplicasAfterAppend", "InvalidRequiredAcks", "IllegalGeneration",
   "InconsistentGroupProtocol", "InvalidGroupId", "UnknownMemberId", "InvalidSessionTimeout",
   "RebalanceInProgress", "InvalidCommitOffsetSize", "TopicAuthorizationFailed",
   "GroupAuthorizationFailed", "ClusterAuthorizationFailed", "InvalidTimestamp",
   "UnsupportedSaslMechanism", "IllegalSaslState", "UnsupportedVersion", "TopicAlreadyExists",
   "InvalidPartitions", "InvalidReplicationFactor", "InvalidReplicaAssignment", "InvalidConfig",
   "NotController", "InvalidRequest", "UnsupportedForMessageFormat", "PolicyViolation",
   "OutOfOrderSequenceNumber", "DuplicateSequenceNumber", "InvalidProducerEpoch",
   "InvalidTxnState", "InvalidProducerIdMapping", "InvalidTransactionTimeout",
   "ConcurrentTransactions", "TransactionCoordinatorFenced", "TransactionalIdAuthorizationFailed",
   "SecurityDisabled", "OperationNotAttempted", "KafkaStorageError", "LogDirNotFound",
   "SaslAuthenticationFailed", "UnknownProducerId", "ReassignmentInProgress",
   "DelegationTokenAuthDisabled", "DelegationTokenNotFound", "DelegationTokenOwnerMismatch",
   "DelegationTokenRequestNotAllowed", "DelegationTokenAuthorizationFailed",
   "DelegationTokenExpired", "InvalidPrincipalType", "NonEmptyGroup", "GroupIdNotFound",
   "FetchSessionIdNotFound", "InvalidFetchSessionEpoch", "ListenerNotFound",
   "TopicDeletionDisabled", "FencedLeaderEpoch", "UnknownLeaderEpoch",
   "UnsupportedCompressionType", "StaleBrokerEpoch", "OffsetNotAvailable", "MemberIdRequired",
   "PreferredLeaderNotAvailable", "GroupMaxSizeReached", "FencedInstanceId",
   "EligibleLeadersNotAvailable", "ElectionNotNeeded", "NoReassignmentInProgress",
   "GroupSubscribedToTopic", "InvalidRecord", "UnstableOffsetCommit", "ThrottlingQuotaExceeded",
   "ProducerFenced", "ResourceNotFound", "DuplicateResource", "UnacceptableCredential",
   "InconsistentVoterSet", "InvalidUpdateVersion", "FeatureUpdateFailed",
   "PrincipalDeserializationFailure", "SnapshotNotFound", "PositionOutOfRange", "UnknownTopicId",
   "DuplicateBrokerRegistration", "BrokerIdNotRegistered", "InconsistentTopicId",
   "InconsistentClusterId", "TransactionalIdNotFound", "FetchSessionTopicIdError"]

/-- The name of a code other than zero; a number without one shows itself. -/
def name (code : Int16) : String :=
  if code = -1 then "UnknownServerError"
  else
    match code.toInt with
    | .ofNat (index + 1) => names.getD index s!"Unknown({code})"
    | _ => s!"Unknown({code})"

def text (code : Int16) : String :=
  if code = 0 then s!"unknown error code {code}" else s!"{name code} (code {code})"

end ConsumerGroups.ErrorCode
