import TrafficWarden.Proofs.JsonForms
import TrafficWarden.Main
import TrafficWarden.Proofs.AddressText
import TrafficWarden.Proofs.PacketMatching
import TrafficWarden.Proofs.CompiledRules
import TrafficWarden.Proofs.RuleWords
import TrafficWarden.Proofs.PortRules
import TrafficWarden.Proofs.AcceptableRules
import TrafficWarden.Proofs.RuleCounts
import TrafficWarden.Proofs.ReversedBags
import TrafficWarden.Proofs.Classification
import TrafficWarden.Proofs.StoreInserts
import TrafficWarden.Proofs.ActiveIds
import TrafficWarden.Proofs.StoreViews
import TrafficWarden.Proofs.ActivityChanges
import TrafficWarden.Proofs.CycleRuns
import TrafficWarden.Proofs.Freshness
import TrafficWarden.Proofs.StoreEdits
import TrafficWarden.Proofs.DispatchRaces
import TrafficWarden.Proofs.AddressSpelling
import TrafficWarden.Proofs.MacSpelling
import TrafficWarden.Proofs.CatalogJoin
import TrafficWarden.Proofs.CatalogStore
import TrafficWarden.Proofs.CatalogAcceptance
import TrafficWarden.Proofs.ParameterJoin
import TrafficWarden.Proofs.PolicyVerdicts
import TrafficWarden.Proofs.ActiveViews
import TrafficWarden.Proofs.CycleAtomicity
import TrafficWarden.Proofs.CatalogIsolation
import TrafficWarden.Proofs.RowOrder
import TrafficWarden.Proofs.ShellWords
import TrafficWarden.Proofs.ScriptTokens
import TrafficWarden.Proofs.ScriptStatements
import TrafficWarden.Proofs.ScriptArguments
import TrafficWarden.Proofs.WrittenScripts
import TrafficWarden.Proofs.ScriptComments
import TrafficWarden.Proofs.GatewayChanges
import TrafficWarden.Proofs.InstalledRules
import TrafficWarden.Proofs.QueueClasses
import TrafficWarden.Proofs.GatewayState
import TrafficWarden.Proofs.GatewayReset
import TrafficWarden.Proofs.GatewayFrame
import TrafficWarden.Proofs.Reapplying
import TrafficWarden.Proofs.WatchLoop
import TrafficWarden.Proofs.WatchRuns
import TrafficWarden.Proofs.RepeatedPolicies
import TrafficWarden.Proofs.FilePlaces
import TrafficWarden.Proofs.StagedScript
import TrafficWarden.Proofs.ScriptRecord
import TrafficWarden.Proofs.TomlStrings
import TrafficWarden.Proofs.DecimalDigits
import TrafficWarden.Proofs.TomlNumerals
import TrafficWarden.Proofs.TomlLines
import TrafficWarden.Proofs.DistinctNames
import TrafficWarden.Proofs.TableOverlay
import TrafficWarden.Proofs.SettingsLayers
import TrafficWarden.Proofs.SavedSettings
import TrafficWarden.Proofs.EffectiveSettings
import TrafficWarden.Proofs.RuleDecoding
import TrafficWarden.Proofs.RuleReversal
import TrafficWarden.Proofs.RuleProducts
import TrafficWarden.Proofs.StoreHistory
import TrafficWarden.Proofs.CatalogDocuments
import TrafficWarden.Proofs.LineReadings
import TrafficWarden.Proofs.CommandLines
import TrafficWarden.Proofs.QuietLines
import TrafficWarden.Proofs.OutputOptions
import TrafficWarden.Proofs.PrintedViews
