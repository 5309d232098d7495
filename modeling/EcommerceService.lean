import EcommerceService.Errors
import EcommerceService.Models
import EcommerceService.Database
import EcommerceService.Repositories
import EcommerceService.Backend
import EcommerceService.Services
import EcommerceService.Facades
import EcommerceService.OutboxPolling
import EcommerceService.OrderLife
import EcommerceService.Saga
import EcommerceService.TransactionEffects
import EcommerceService.SagaInvariant
import EcommerceService.SagaSafety
import EcommerceService.SagaOutcomes
import EcommerceService.Lib.Effects
import EcommerceService.Lib.Pool
import EcommerceService.Lib.Monitor
import EcommerceService.Lib.Transactions
import EcommerceService.SagaRuns
import EcommerceService.StockEffects
import EcommerceService.RowLocks
import EcommerceService.StockLocking
import EcommerceService.WalletLedger
import EcommerceService.SagaCalls
import EcommerceService.Compensation
import EcommerceService.ReArm
import EcommerceService.Redelivery
import EcommerceService.Consumers
import EcommerceService.Consumption
import EcommerceService.Lib.SortedSets
import EcommerceService.Lib.Doubles
import EcommerceService.Cache
import EcommerceService.Storefront
import EcommerceService.Shop
import EcommerceService.Reservations
import EcommerceService.ReservationCount
import EcommerceService.ReservationCap
import EcommerceService.ProductCache
import EcommerceService.PaymentConflicts
import EcommerceService.Restoration
import EcommerceService.Deduction
import EcommerceService.Reversal
import EcommerceService.Leftovers
import EcommerceService.OrderData
import EcommerceService.Checkout
import EcommerceService.Lib.Histories
import EcommerceService.OrderCalls
import EcommerceService.OrderReservations
import EcommerceService.OrderCap
import EcommerceService.PriceAge
import EcommerceService.Settling
import EcommerceService.SignUp
import EcommerceService.Lib.JsonText
import EcommerceService.Payloads
import EcommerceService.Transparency
import EcommerceService.Poller
import EcommerceService.Lib.Linearize
import EcommerceService.Carts
import EcommerceService.CartHistories
import EcommerceService.CartAnswers
import EcommerceService.Delivery
import EcommerceService.SagaBooks
import EcommerceService.Market
import EcommerceService.SagaRefinement
import EcommerceService.OrderViews
import EcommerceService.Sessions
import EcommerceService.SessionSafety
import EcommerceService.Announcements
import EcommerceService.Completion
