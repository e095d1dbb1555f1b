import Nexus.HostGenerations
import Nexus.ModuleReleases
import Nexus.AddressAttribution
import Nexus.CallbackGateSteps
import Nexus.StuckKeys
import Nexus.PressedModifiers
import Nexus.UniqueBindings
import Nexus.TransitionRuns
import Nexus.FontCleanup
import Nexus.GameBindRoundTrip
import Nexus.InputBindsRoundTrip
import Nexus.AddonConfigRoundTrip
import Nexus.ForeignItems
import Nexus.CommitSafety
import Nexus.HttpCacheRuns
import Nexus.StepRuns
import Nexus.Tally
import Nexus.TextureCarriers
import Nexus.TextureCleanup
import Nexus.TextureFinality
import Nexus.AffinityRuns
import Nexus.AddonCleanupRuns
import Nexus.SettingsDeliveries
import Nexus.SchedulerRuns
import Nexus.FontCommandRuns
import Nexus.FontAttachmentRuns
import Nexus.TextureSessionRuns
import Nexus.PrimaryClassifier
import Nexus.CallerAttribution
import Nexus.GameMessageDelivery
import Nexus.SelectionRuns
import Nexus.LaneKeys
import Nexus.LiveAttribution
import Nexus.LogDeliveries
import Nexus.FontInvalidations
import Nexus.FontFences
import Nexus.HookContracts
import Nexus.GameBindContracts
import Nexus.TimedInvocations
import Nexus.FontBlocks
import Nexus.BindSyntaxRoundTrip
import Nexus.EventDispatches
import Nexus.RawRoutes
import Nexus.AddonConfigPreserved
import Nexus.DirectoryRuns
import Nexus.Md5Refinement
import Nexus.GameInputWindows
import Nexus.QuickAccessRevisions
import Nexus.RequestParts
import Nexus.LegacyAddonIds
import Nexus.ReleaseSelection
import Nexus.WinHttp
import Nexus.LocalizationRuns
import Nexus.PrimaryRanks
import Nexus.RenderFrames
import Nexus.DxgiTransparency
import Nexus.SessionEvents
import Nexus.CancellationWaits
import Nexus.ChangeCoalescing
import Nexus.InputLosses
import Nexus.NativeCopies
import Nexus.FailedPresses
import Nexus.CursorDrags
import Nexus.ForwardedMessages
import Nexus.MumbleSnapshots
import Nexus.DrawReads
