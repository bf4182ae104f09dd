import PaymentNetwork.Main
import PaymentNetwork.Record.Channel
import PaymentNetwork.Record.Node
import PaymentNetwork.Record.Transfer
import PaymentNetwork.Simulation.Control
import PaymentNetwork.Proofs.Locksroot
import PaymentNetwork.Proofs.Channel.Locks
import PaymentNetwork.Proofs.Channel.Recommitment
import PaymentNetwork.Proofs.Channel.History
import PaymentNetwork.Proofs.Channel.Solvency
import PaymentNetwork.Proofs.Channel.Consistency
import PaymentNetwork.Proofs.Channel.Synchrony
import PaymentNetwork.Proofs.Channel.Recovery
import PaymentNetwork.Proofs.NetworkView
import PaymentNetwork.Proofs.NetworkView.Openings
import PaymentNetwork.Proofs.Transfer.Offer
import PaymentNetwork.Proofs.Transfer.Trace
import PaymentNetwork.Proofs.Transfer.Debt
import PaymentNetwork.Proofs.Transfer.Mediation
import PaymentNetwork.Proofs.Transfer.Disposal
import PaymentNetwork.Proofs.Transfer.Forwarding
import PaymentNetwork.Proofs.Transfer.Deadline
import PaymentNetwork.Proofs.Transfer.Claim
import PaymentNetwork.Proofs.Transfer.Deeds
import PaymentNetwork.Proofs.Broker.Run
import PaymentNetwork.Proofs.Broker.Unlock
import PaymentNetwork.Proofs.Broker.Settlement
import PaymentNetwork.Proofs.Broker.Incoming
import PaymentNetwork.Proofs.Broker.Openings
import PaymentNetwork.Proofs.Broker.Deeds
import PaymentNetwork.Proofs.Broker.Receipt
import PaymentNetwork.Proofs.Broker.Clock
import PaymentNetwork.Proofs.Broker.Backing
import PaymentNetwork.Proofs.Broker.Reaction
import PaymentNetwork.Proofs.Transfer.Timeliness
import PaymentNetwork.Proofs.Broker.Timeliness
import PaymentNetwork.Proofs.Transfer.Pledge
import PaymentNetwork.Proofs.Broker.Queue
import PaymentNetwork.Proofs.Broker.Custody
import PaymentNetwork.Proofs.Broker.Carriage
import PaymentNetwork.Proofs.Broker.Actions
import PaymentNetwork.Proofs.Transfer.Payment
import PaymentNetwork.Proofs.Transfer.Routing
import PaymentNetwork.Proofs.Transfer.Secrecy
import PaymentNetwork.Proofs.Broker.Secrecy
import PaymentNetwork.Proofs.Broker.Facts
import PaymentNetwork.Proofs.Broker.Payment
import PaymentNetwork.Proofs.Broker.Expiry
import PaymentNetwork.Proofs.Broker.Removal
import PaymentNetwork.Proofs.Broker.VisitOrder
import PaymentNetwork.Proofs.Transfer.Payer
import PaymentNetwork.Proofs.Broker.Window
import PaymentNetwork.Proofs.Chain.Release
import PaymentNetwork.Proofs.Chain.Delivery
import PaymentNetwork.Proofs.Connection.Share
import PaymentNetwork.Proofs.Connection.Budget
import PaymentNetwork.Proofs.Connection.Partners
import PaymentNetwork.Proofs.Connection.Serial
import PaymentNetwork.Proofs.Broker.Outgoing
import PaymentNetwork.Proofs.Transfer.Strangers
import PaymentNetwork.Proofs.Broker.Strangers
import PaymentNetwork.Proofs.Broker.Search
import PaymentNetwork.Proofs.Broker.Answer
import PaymentNetwork.Proofs.Broker.Start
import PaymentNetwork.Proofs.Transfer.Margin
import PaymentNetwork.Proofs.Broker.Tracking
import PaymentNetwork.Proofs.Node.Run
import PaymentNetwork.Proofs.Node.Margin
import PaymentNetwork.Proofs.Node.Joining
import PaymentNetwork.Proofs.Connection.Deposits
import PaymentNetwork.Proofs.Connection.Connecting
import PaymentNetwork.Proofs.Simulation.Submission
import PaymentNetwork.Proofs.Simulation.Leaving
import PaymentNetwork.Proofs.Bytes
import PaymentNetwork.Proofs.Chain.Callbacks
import PaymentNetwork.Proofs.Node.Heights
import PaymentNetwork.Proofs.Record
import PaymentNetwork.Proofs.NetworkView.Effects
import PaymentNetwork.Proofs.NetworkView.EventOrder
import PaymentNetwork.Proofs.Broker.Turns
