import StrategySearch.Main
import StrategySearch.Proofs.Backtest.Location
import StrategySearch.Proofs.Portfolio.Feed
import StrategySearch.Proofs.Portfolio.Matching
import StrategySearch.Proofs.Portfolio.Profit
import StrategySearch.Proofs.Propose.History
import StrategySearch.Proofs.Propose.Identity
import StrategySearch.Proofs.Propose.Split
import StrategySearch.Proofs.Report.Backtest
import StrategySearch.Proofs.Search.Budget
import StrategySearch.Proofs.Search.Candidates
import StrategySearch.Proofs.Search.Observer
import StrategySearch.Proofs.Settings.Address
import StrategySearch.Proofs.Settings.Layout
import StrategySearch.Proofs.Settings.Padding
import StrategySearch.Proofs.Space.RoundTrip
import StrategySearch.Proofs.Space.Variations
import StrategySearch.Proofs.Strategy.Succession
import StrategySearch.Proofs.Text.Abridgement
import StrategySearch.Rehearsal.Desk
import StrategySearch.Rehearsal.Script
