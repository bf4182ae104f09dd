import PaymentNetwork.Message

/-!
# Reports to the Application

What a node tells the application that runs it: the outcome of payments it
started, payments it received, and notices for a human reader.

## Main definitions

* `SentTransfer`, `ReceivedTransfer`, `Notice`: The three kinds of report.
* `Report`: Any of them.
-/

namespace PaymentNetwork

/-- How a payment that we started ended. -/
inductive TransferStatus where
  | completed
  | expired
  | canceled
deriving DecidableEq

/-- How urgent a notice is. -/
inductive NoticeLevel where
  | info
  | warning
  | error
deriving DecidableEq

/-- The end of a payment that we started. -/
structure SentTransfer where
  paymentId : PaymentId
  tokenNetwork : Address
  target : Address
  amount : Amount
  secretHash : SecretHash
  status : TransferStatus
  reason? : Option String
deriving DecidableEq

/-- A payment to us whose secret we learned. -/
structure ReceivedTransfer where
  paymentId : PaymentId
  tokenNetwork : Address
  initiator : Address
  amount : Amount
  secretHash : SecretHash
deriving DecidableEq

/-- A sentence for a human reader. -/
structure Notice where
  level : NoticeLevel
  info : String
deriving DecidableEq

/-- A report to the application. -/
inductive Report where
  | notice (n : Notice)
  | sent (t : SentTransfer)
  | received (t : ReceivedTransfer)
deriving DecidableEq

namespace Notice

/-- The notice about a locked transfer that arrived. -/
def ofLockedTransfer (m : LockedTransfer) : Notice where
  level := .info
  info := "received locked transfer: token_network=" ++ m.balanceProof.tokenNetwork.toText
    ++ ", amount=" ++ m.lock.amount.toText
    ++ ", secret_hash=" ++ m.lock.secretHash.toText

end Notice

end PaymentNetwork
